import PaymentWorkflow.DurabilityProofs
import PaymentWorkflow.CatalogProofs

/-! The catalog version that runs, and the version the endpoint checked. -/

namespace PaymentWorkflow

open Interleaving

structure Flight.Looked (catalog : Catalog) (flight : Flight) : Prop where
  listed : ∃ row ∈ catalog, row.contract = flight.entry.contract
  module : flight.entry.module = flight.state.module
  action : flight.entry.action = flight.state.action
  version : flight.entry.version = flight.state.version
  explicit : ∀ version, flight.state.explicitVersion = some version → flight.state.version = version

def Effect.Checked (effect : Effect) : Prop := effect.executed.contract = effect.entry.contract

instance {effect : Effect} : Decidable effect.Checked := inferInstanceAs (Decidable (_ = _))

theorem getOrDefault_found {catalog : Catalog} {module action : String}
    {explicitVersion : Option Int} {entry : ActionManifest}
    (found : catalog.getOrDefault module action explicitVersion = some entry) :
    entry ∈ catalog ∧ entry.module = module ∧ entry.action = action ∧
      ∀ version, explicitVersion = some version → entry.version = version := by
  unfold Catalog.getOrDefault at found
  split at found
  · rename_i version
    have matched := List.find?_some found
    simp only [ActionManifest.isVersion, ActionManifest.onRoute, Bool.and_eq_true,
      decide_eq_true_eq] at matched
    refine ⟨List.mem_of_find?_eq_some found, matched.1.1.1, matched.1.1.2, ?_⟩
    intro other same
    cases same
    exact matched.1.2
  · have matched := List.find?_some found
    simp only [ActionManifest.onRoute, Bool.and_eq_true, decide_eq_true_eq] at matched
    exact ⟨List.mem_of_find?_eq_some found, matched.1.1.1, matched.1.1.2, by simp⟩

theorem invoked_found {catalog : Catalog} {module action : String} {version : Option Int}
    {row : ActionManifest} (found : catalog.invoked module action version = .ok row) :
    row ∈ catalog ∧ row.module = module ∧ row.action = action ∧
      (∀ number, version = some number → row.version = number) ∧
      (version = none → catalog.default? module action = some row) := by
  unfold Catalog.invoked at found
  split at found
  · rename_i number
    split at found
    · cases found
    · rename_i other present
      split at found
      · cases found
        have matched := List.find?_some present
        simp only [ActionManifest.isVersion, ActionManifest.onRoute, decide_eq_true_eq] at matched
        refine ⟨List.mem_of_find?_eq_some present, matched.1.1, matched.1.2, ?_, by simp⟩
        intro other same
        cases same
        exact matched.2
      · cases found
  · split at found
    · cases found
    · rename_i other present
      cases found
      have matched := List.find?_some present
      simp only [ActionManifest.onRoute, Bool.and_eq_true, decide_eq_true_eq] at matched
      exact ⟨List.mem_of_find?_eq_some present, matched.1.1, matched.1.2, (by simp), fun _ => present⟩

theorem apiInvoke_executed {db : ApiDb} {module action : String} {version : Option Int}
    {context : InvokeContext} {target : TargetRun} {invocation : Invocation}
    {row : ActionManifest} (called : apiInvoke db module action version context target = .ok invocation)
    (executed : invocation.executed = some row) :
    db.catalog.invoked module action version = .ok row := by
  unfold apiInvoke at called
  split at called
  · cases called
    cases executed
  · rename_i found present
    dsimp only at called
    split at called
    · cases called
      cases executed
    · split at called
      · cases called
        cases executed
      · cases called
        cases executed
      · cases called
        cases executed
        exact present
      · split at called
        · cases called
          cases executed
          exact present
        · obtain ⟨dispatch, recorded, rest⟩ := Runs.bind_eq_ok.mp called
          cases rest
          cases executed
          exact present

theorem Flight.Looked.checked {catalog : Catalog} {flight : Flight} (looked : flight.Looked catalog)
    (unique : catalog.keys.Nodup) {row : ActionManifest} (member : row ∈ catalog)
    (module : row.module = flight.state.module) (action : row.action = flight.state.action) :
    row.contract = flight.entry.contract ↔ row.version = flight.state.version := by
  obtain ⟨listed, inside, same⟩ := looked.listed
  constructor
  · intro equal
    have keys := Catalog.key_of_contract equal
    simp only [ActionManifest.key, Prod.mk.injEq] at keys
    exact keys.2.2.trans looked.version
  · intro equal
    have key : listed.key = row.key := by
      rw [Catalog.key_of_contract same]
      simp only [ActionManifest.key, looked.module, looked.action, looked.version, module, action,
        equal]
    rw [← Catalog.contract_of_key unique inside member key]
    exact same

def Connection.Carries (session : Connection) (effect : Effect) : Prop :=
  ∃ transaction, (session = .live transaction ∨ session = .committing transaction) ∧
    transaction.effect = some effect

namespace Flight

/-- The default version is another one by the time `api.invoke` looks it up. -/
def strays (catalog : Catalog) (flight : Flight) (input : Input) : Bool :=
  match input, flight.phase, flight.state.explicitVersion with
  | .invoke _ none, .claimed, none => flight.sending &&
      (catalog.default? flight.state.module flight.state.action).any fun row =>
        row.version ≠ flight.state.version
  | _, _, _ => false

def Uninvoked (flight : Flight) : Prop :=
  match flight.phase with
  | .called | .begun | .conflicted | .cleared | .claimed => True
  | _ => False

structure VersionTracks (flight : Flight) (met : Prop) : Prop where
  before : flight.Uninvoked → met
  carried : ∀ effect, flight.session.Carries effect → (effect.Checked ↔ met)

section Steps

variable {packages : Packages} {db later : ApiDb} {blocked : Bool} {flight after : Flight}
  {input : Input} {met : Prop} {effect : Effect}

theorem carries_live {session : Connection} {transaction : Transaction}
    (live : session = .live transaction) (carried : session.Carries effect) :
    transaction.effect = some effect := by
  obtain ⟨other, open_ | committing, holds⟩ := carried
  · rw [live, Connection.live.injEq] at open_
    rw [open_]
    exact holds
  · cases live.symm.trans committing

theorem not_carries_closed : ¬ Connection.Carries .closed effect := by
  rintro ⟨_, live | committing, _⟩
  · cases live
  · cases committing

theorem not_carries_lost : ¬ Connection.Carries (.live lost) effect := by
  rintro ⟨transaction, live | committing, carried⟩
  · cases live
    cases carried
  · cases committing

theorem Hit.carries (hit : Hit flight after) (carried : after.session.Carries effect) :
    flight.session.Carries effect := by
  rcases hit.session with same | ⟨_, aborted⟩
  · rwa [same] at carried
  · rw [aborted] at carried
    exact absurd carried not_carries_lost

theorem Bookkept.carries {fault : Option Fault} {write : Transaction → Transaction}
    (kept : Bookkept flight fault write after)
    (same : ∀ transaction, (write transaction).effect = transaction.effect)
    (carried : after.session.Carries effect) : flight.session.Carries effect := by
  cases kept with
  | wrote whole running live =>
      exact ⟨_, Or.inl live, (same _).symm.trans (carries_live rfl carried)⟩
  | threw thrown => exact (execute_error thrown).carries carried

inductive Brought (db : ApiDb) (flight : Flight) (input : Input) (effect : Effect) : Prop
  | carried (carried : flight.session.Carries effect)
  | invoked {target : TargetRun} {row : ActionManifest} (claimed : flight.phase = .claimed)
      (sending : flight.sending = true) (sent : input = .invoke target none)
      (found : db.catalog.invoked flight.state.module flight.state.action
        flight.state.explicitVersion = .ok row)
      (same : effect = flight.effectOf row target.value)

theorem Move.brought (move : Move packages db blocked flight input later after)
    (carried : after.session.Carries effect) : Brought db flight input effect := by
  cases move with
  | rested | expired | refused | replayed | unreached | reported | unsent =>
      exact Brought.carried carried
  | dropped | cleared | rolledBack | committed | undone | settled =>
      exact absurd carried not_carries_closed
  | conflicted | clashed => exact absurd carried not_carries_lost
  | begun | begunUnkeyed => cases carries_live rfl carried
  | failed before thrown fails => exact Brought.carried (thrown.carries carried)
  | claimed begun keyed live healthy free absent =>
      have held := carries_live rfl carried
      exact Brought.carried ⟨_, Or.inl live, held⟩
  | invoked claimed whole running live healthy called =>
      rename_i target invocation transaction
      have held := carries_live rfl carried
      obtain ⟨row, executed, rfl⟩ := Option.map_eq_some_iff.mp held
      refine Brought.invoked claimed ?_ rfl (apiInvoke_executed called executed) rfl
      simp [sending, live, healthy, whole, running]
  | logged phase wrote continued => exact Brought.carried (wrote.carries (fun _ => rfl) carried)
  | stored phase wrote => exact Brought.carried (wrote.carries (fun _ => rfl) carried)
  | inDoubt phase whole running live fails =>
      obtain ⟨other, open_ | committing, holds⟩ := carried
      · cases open_
      · cases committing
        exact Brought.carried ⟨_, Or.inl live, holds⟩

theorem Move.uninvoked (move : Move packages db blocked flight input later after)
    (uninvoked : after.Uninvoked) : flight.Uninvoked := by
  cases move with
  | rested | expired | dropped | settled => exact uninvoked
  | begun phase | begunUnkeyed phase | claimed phase | conflicted phase | cleared phase =>
      simp only [Uninvoked, phase]
  | failed | refused | replayed | rolledBack | unreached | reported | stored | committed | undone
  | inDoubt | unsent => exact uninvoked.elim
  | invoked phase whole running live healthy called => simp only [Uninvoked, phase]
  | logged phase wrote continued =>
      subst continued
      by_cases keyed : flight.state.idempotencyScopeKey.isSome = true <;>
        simp [Uninvoked, keyed] at uninvoked
  | clashed phase present continued =>
      subst continued
      by_cases keyed : flight.state.idempotencyScopeKey.isSome = true <;>
        simp [Uninvoked, keyed] at uninvoked

theorem sending_execute (sending : flight.sending = true) :
    ∃ transaction, flight.execute none = .ok transaction := by
  unfold Flight.sending at sending
  split at sending
  · rename_i transaction live
    simp only [Bool.and_eq_true, Bool.not_eq_true'] at sending
    exact ⟨transaction, by simp [execute, send, live, sending]⟩
  · cases sending

/-- A request whose default has moved is past `api.invoke` once the call has been made. -/
theorem strays_step (moved : flight.strays db.catalog input = true) :
    ¬ (flight.step packages db blocked input).2.Uninvoked := by
  unfold strays at moved
  split at moved
  · rename_i target phase unversioned
    simp only [Bool.and_eq_true] at moved
    obtain ⟨transaction, executed⟩ := sending_execute moved.1
    simp only [step, phase, invoke, executed]
    split
    · exact id
    · rename_i invocation called
      rcases judge_cases packages flight invocation.reply with
        thrown | ⟨outcome, answer, rejected, _⟩ | ⟨outcome, result, judged, _⟩
      · simp [Uninvoked, thrown]
      · simp [Uninvoked, rejected]
      · simp [Uninvoked, judged]
  · cases moved

theorem ended_stays {catalog : Catalog} (flight : Flight) (ended : flight.Ended) :
    flight.strays catalog input = false := by
  obtain ⟨answer, phase⟩ := ended
  unfold strays
  split
  · rename_i claimed _
    cases claimed.symm.trans phase
  · rfl

theorem Sound.uncarried (sound : flight.Sound packages)
    (moved : flight.strays db.catalog input = true) : ¬ flight.session.Carries effect := by
  unfold strays at moved
  split at moved
  · rename_i target phase unversioned
    rintro ⟨transaction, live | committing, carried⟩
    · rcases sound.live transaction live with gone | ⟨_, expects⟩
      · rw [gone] at carried
        cases carried
      · simp only [Expects, phase] at expects
        rw [expects] at carried
        cases carried
    · obtain ⟨⟨answer, answered⟩, _⟩ := sound.committing transaction committing
      rw [phase] at answered
      cases answered
  · cases moved

theorem not_strays_version {target : TargetRun} {row : ActionManifest} {catalog : Catalog}
    (looked : flight.Looked catalog) (claimed : flight.phase = .claimed)
    (sending : flight.sending = true)
    (found : catalog.invoked flight.state.module flight.state.action
      flight.state.explicitVersion = .ok row) :
    flight.strays catalog (.invoke target none) = false ↔ row.version = flight.state.version := by
  obtain ⟨_, _, _, numbered, default⟩ := invoked_found found
  cases explicit : flight.state.explicitVersion with
  | some version =>
      have same : row.version = flight.state.version :=
        (numbered version explicit).trans (looked.explicit version explicit).symm
      simp [strays, claimed, explicit, same]
  | none =>
      simp [strays, claimed, explicit, sending, default explicit]

theorem VersionTracks.move (tracks : flight.VersionTracks met) (sound : flight.Sound packages)
    (looked : flight.Looked db.catalog) (unique : db.catalog.keys.Nodup)
    (move : Move packages db blocked flight input (flight.step packages db blocked input).1
      (flight.step packages db blocked input).2) :
    (flight.step packages db blocked input).2.VersionTracks
      (met ∧ flight.strays db.catalog input = false) := by
  constructor
  · intro uninvoked
    refine ⟨tracks.before (move.uninvoked uninvoked), ?_⟩
    by_contra strays
    exact strays_step (by simpa using strays) uninvoked
  · intro effect carried
    rcases move.brought carried with carried | ⟨claimed, sending, rfl, found, rfl⟩
    · have calm : flight.strays db.catalog input = false := by
        by_contra strays
        have moved : flight.strays db.catalog input = true := by simpa using strays
        exact sound.uncarried moved carried
      rw [tracks.carried effect carried, calm]
      simp
    · rename_i target row
      have met : met := tracks.before (by simp only [Uninvoked, claimed])
      obtain ⟨member, module, action, _, _⟩ := invoked_found found
      have checked := looked.checked unique member module action
      have versions := @not_strays_version flight target row _ looked claimed sending found
      rw [versions, and_iff_right met]
      exact checked

end Steps

end Flight

structure Api.Versioned (packages : Packages) (api : Api) : Prop where
  sound : api.Sound packages
  unique : api.shared.catalog.keys.Nodup
  looked : ∀ index flight, api.party index = .invoking flight → flight.Looked api.shared.catalog
  dispatched : ∀ row ∈ api.shared.dispatches, ∃ flight,
    api.party row.correlationId = .invoking flight ∧ row.version = flight.state.version
  answered : ∀ index flight body, api.party index = .invoking flight →
    flight.phase = .answered (.ok body) → body.actionVersion = flight.state.version

def Slot.VersionTracks (met : Prop) : Slot → Prop
  | .invoking flight => flight.VersionTracks met
  | _ => met

structure Api.VersionTracked (packages : Packages) (index : Nat) (api : Api) (met : Prop) :
    Prop where
  versioned : api.Versioned packages
  own : (api.party index).VersionTracks met
  applied : ∀ effect ∈ api.shared.effects, effect.request = index → (effect.Checked ↔ met)

def Api.strays (index : Nat) (api : Api) : ApiEvent → Bool
  | .statement other input =>
      other = index &&
        match api.party index with
        | .invoking flight => flight.strays api.shared.catalog input
        | _ => false
  | _ => false

section Runs

variable {packages : Packages} {registered : String → String → Bool} {api : Api} {index : Nat}
  {met : Prop}

theorem Flight.Looked.kept {catalog later : Catalog} {flight : Flight}
    (looked : flight.Looked catalog) (kept : Catalog.Kept catalog later) : flight.Looked later where
  listed := by
    obtain ⟨row, member, same⟩ := looked.listed
    obtain ⟨after, present, equal⟩ := kept.rows row member
    exact ⟨after, present, equal.trans same⟩
  module := looked.module
  action := looked.action
  version := looked.version
  explicit := looked.explicit

theorem Slot.handle_looked {catalog : Catalog} {request : ActionRequest} {reached : Bool}
    {flight : Flight} (handled : Slot.handle packages catalog index request reached =
      .invoking flight) : flight.Looked catalog ∧ flight.phase = .called ∧ flight.session = .closed := by
  unfold Slot.handle at handled
  split at handled
  · cases handled
  · split at handled
    · cases handled
    · rename_i state entry checked
      cases handled
      unfold checkRequest at checked
      split at checked
      · cases checked
      · rename_i found present
        obtain ⟨member, module, action, explicit⟩ := getOrDefault_found present
        split at checked
        · cases checked
        · split at checked
          · cases checked
          · split at checked
            · cases checked
            · split at checked
              · cases checked
              · cases checked
                exact ⟨⟨⟨entry, member, rfl⟩, module, action, rfl, explicit⟩, rfl, rfl⟩

/-- A flight that has answered ok had done so before, or has just committed. -/
theorem Flight.Move.okCommitted {db later : ApiDb} {blocked : Bool} {flight after : Flight}
    {input : Input} {body : OkBody} (move : Move packages db blocked flight input later after)
    (sound : flight.Sound packages) (answered : after.phase = .answered (.ok body)) :
    (flight.phase = .answered (.ok body) ∧ (after.session = flight.session ∨
        after.session = .closed) ∧
        (later = db ∨ ∃ transaction, flight.session = .committing transaction)) ∨
      ∃ outcome result transaction, flight.phase = .stored outcome result ∧
        flight.broken = false ∧ flight.expired = false ∧ flight.session = .live transaction ∧
        after.session = .closed ∧ later = db.commit transaction ∧
        Answer.ok body = flight.okAnswer outcome result := by
  have failing : ∀ {reply : Answer}, reply.Fails → reply = .ok body → False := by
    rintro reply fails rfl
    exact fails
  cases move with
  | rested => exact Or.inl ⟨answered, Or.inl rfl, Or.inl rfl⟩
  | expired => exact Or.inl ⟨answered, Or.inl rfl, Or.inl rfl⟩
  | dropped => exact Or.inl ⟨answered, Or.inr rfl, Or.inl rfl⟩
  | settled committing => exact Or.inl ⟨answered, Or.inr rfl, Or.inr ⟨_, committing⟩⟩
  | failed before thrown fails => exact (failing fails (FlightPhase.answered.inj answered)).elim
  | refused before fails => exact (failing fails (FlightPhase.answered.inj answered)).elim
  | unreached phase fails => exact (failing fails (FlightPhase.answered.inj answered)).elim
  | undone phase fails => exact (failing fails (FlightPhase.answered.inj answered)).elim
  | inDoubt phase whole running live fails =>
      exact (failing fails (FlightPhase.answered.inj answered)).elim
  | unsent phase fails => exact (failing fails (FlightPhase.answered.inj answered)).elim
  | reported phase =>
      exact (failing (sound.rejects _ _ (Or.inr phase)) (FlightPhase.answered.inj answered)).elim
  | begun | begunUnkeyed | claimed | conflicted | cleared | replayed | rolledBack | stored =>
      cases answered
  | invoked phase whole running live healthy called =>
      rename_i target invocation transaction
      rcases judge_cases packages flight invocation.reply with
        thrown | ⟨outcome, reply, rejected, _⟩ | ⟨outcome, result, judged, _⟩
      · cases thrown.symm.trans answered
      · cases rejected.symm.trans answered
      · cases judged.symm.trans answered
  | logged phase wrote continued =>
      subst continued
      by_cases keyed : flight.state.idempotencyScopeKey.isSome = true <;> simp [keyed] at answered
  | clashed phase present continued =>
      subst continued
      by_cases keyed : flight.state.idempotencyScopeKey.isSome = true <;> simp [keyed] at answered
  | committed phase whole running live =>
      exact Or.inr ⟨_, _, _, phase, whole, running, live, rfl, rfl,
        (FlightPhase.answered.inj answered).symm⟩

/-- An ok answer names the version the request was checked against. -/
theorem Flight.Move.okAnswer {db later : ApiDb} {blocked : Bool} {flight after : Flight}
    {input : Input} {body : OkBody} (move : Move packages db blocked flight input later after)
    (sound : flight.Sound packages) (answered : after.phase = .answered (.ok body)) :
    flight.phase = .answered (.ok body) ∨ body.actionVersion = flight.state.version := by
  rcases move.okCommitted sound answered with ⟨before, _⟩ | ⟨_, _, _, _, _, _, _, _, _, same⟩
  · exact Or.inl before
  · cases same
    exact Or.inr rfl

theorem Flight.Writes.catalog {db later : ApiDb} {flight after : Flight}
    (writes : Writes packages db flight after later) : later.catalog = db.catalog := by
  cases writes with
  | nothing | reported | applied => rfl

theorem Flight.Writes.rows {db later : ApiDb} {flight after : Flight}
    (writes : Writes packages db flight after later) :
    ∀ row ∈ later.dispatches, row ∈ db.dispatches ∨
      row.correlationId = flight.state.correlationId ∧ row.version = flight.state.version := by
  intro row member
  cases writes with
  | nothing => exact Or.inl member
  | reported ended =>
      simp only [List.mem_append, List.mem_singleton] at member
      refine member.imp_right fun same => ?_
      rw [same]
      exact ⟨rfl, rfl⟩
  | applied effect complete held closed ended =>
      obtain ⟨reply, acts⟩ := complete.acts
      simp only [ApiDb.apply, List.mem_append, List.mem_singleton, acts.state] at member
      refine member.imp_right fun same => ?_
      rw [same]
      exact ⟨rfl, rfl⟩

theorem turn_flight {slot : Slot} {shared : ApiDb} {flight : Flight} (turning : Nat)
    (phase : api.party index = .invoking flight)
    (own : index = turning → ∃ after, slot = .invoking after ∧ after.state = flight.state) :
    ∃ after, (api.turn turning shared slot).party index = .invoking after ∧
      after.state = flight.state := by
  by_cases same : index = turning
  · obtain ⟨after, rfl, state⟩ := own same
    subst same
    exact ⟨after, World.turn_own _ _ _ _, state⟩
  · exact ⟨flight, by rw [World.turn_other _ _ _ same]; exact phase, rfl⟩

theorem Api.Versioned.turn (versioned : api.Versioned packages) {turning : Nat} {slot : Slot}
    {shared : ApiDb} (sound : Api.Sound packages (api.turn turning shared slot))
    (catalog : shared.catalog = api.shared.catalog)
    (stable : ∀ flight, api.party turning = .invoking flight →
      ∃ after, slot = .invoking after ∧ after.state = flight.state)
    (looked : ∀ flight, slot = .invoking flight → flight.Looked api.shared.catalog)
    (rows : ∀ row ∈ shared.dispatches, row ∈ api.shared.dispatches ∨
      row.correlationId = turning ∧ ∃ flight, slot = .invoking flight ∧
        row.version = flight.state.version)
    (answered : ∀ flight body, slot = .invoking flight → flight.phase = .answered (.ok body) →
      body.actionVersion = flight.state.version) :
    Api.Versioned packages (api.turn turning shared slot) where
  sound := sound
  unique := by rw [World.turn_shared, catalog]; exact versioned.unique
  looked := by
    intro index flight phase
    rw [World.turn_shared, catalog]
    by_cases same : index = turning
    · subst same
      rw [World.turn_own] at phase
      exact looked flight phase
    · rw [World.turn_other _ _ _ same] at phase
      exact versioned.looked index flight phase
  dispatched := by
    intro row member
    rcases rows row member with earlier | ⟨numbered, flight, rfl, version⟩
    · obtain ⟨flight, phase, version⟩ := versioned.dispatched row earlier
      obtain ⟨after, held, state⟩ := @turn_flight api row.correlationId slot shared flight turning
        phase fun same => stable flight (by rw [← same]; exact phase)
      exact ⟨after, held, by rw [state]; exact version⟩
    · exact ⟨flight, by rw [numbered, World.turn_own], version⟩
  answered := by
    intro index flight body phase ended
    by_cases same : index = turning
    · subst same
      rw [World.turn_own] at phase
      exact answered flight body phase ended
    · rw [World.turn_other _ _ _ same] at phase
      exact versioned.answered index flight body phase ended

theorem Api.Versioned.step (versioned : api.Versioned packages) (event : ApiEvent) :
    (Api.step packages registered api event).Versioned packages := by
  have sound : (Api.step packages registered api event).Sound packages := versioned.sound.step event
  cases event with
  | receive request =>
      have free := versioned.sound.fresh api.shared.received (Nat.le_refl _)
      refine versioned.turn sound rfl ?_ ?_ (fun row member => Or.inl member) ?_
      · intro flight phase
        cases free.symm.trans phase
      · intro flight same
        cases same
      · intro flight body same
        cases same
  | handle turning reached =>
      unfold Api.step at sound ⊢
      dsimp only at sound ⊢
      split at sound
      · rename_i request phase
        refine versioned.turn sound rfl ?_ (fun flight handled => (Slot.handle_looked handled).1)
          (fun row member => Or.inl member) ?_
        · intro flight held
          cases phase.symm.trans held
        · intro flight body handled ended
          rw [(Slot.handle_looked handled).2.1] at ended
          cases ended
      · exact versioned
  | statement turning input =>
      unfold Api.step at sound ⊢
      dsimp only at sound ⊢
      split at sound
      · rename_i flight phase
        have move := Flight.step_move packages api.shared flight (api.blocked turning flight) input
        obtain ⟨whole, numbered⟩ := versioned.sound.flights turning flight phase
        obtain ⟨state, entry⟩ := move.state
        have looked := versioned.looked turning flight phase
        refine versioned.turn sound ?_ ?_ ?_ ?_ ?_
        · exact (move.writes whole).catalog
        · intro other held
          cases phase.symm.trans held
          exact ⟨_, rfl, state⟩
        · intro other same
          cases same
          exact ⟨by rw [entry]; exact looked.listed, by rw [entry, state]; exact looked.module,
            by rw [entry, state]; exact looked.action, by rw [entry, state]; exact looked.version,
            by rw [state]; exact looked.explicit⟩
        · intro row member
          refine ((move.writes whole).rows row member).imp_right ?_
          rintro ⟨same, version⟩
          exact ⟨same.trans numbered, _, rfl, by rw [state]; exact version⟩
        · intro other body same ended
          cases same
          rcases move.okAnswer whole ended with before | version
          · rw [state]
            exact versioned.answered turning flight body phase before
          · rw [state]
            exact version
      · exact versioned
  | catalog call =>
      have kept := call.kept registered versioned.unique
      exact ⟨sound, kept.unique, fun index flight phase =>
        (versioned.looked index flight phase).kept kept, versioned.dispatched, versioned.answered⟩

/-- An effect comes to the tables from the transaction that carried it. -/
theorem Flight.Writes.effects {db later : ApiDb} {flight after : Flight}
    (writes : Writes packages db flight after later) :
    ∀ effect ∈ later.effects, effect ∈ db.effects ∨
      effect.request = flight.state.correlationId ∧ flight.session.Carries effect := by
  intro effect member
  cases writes with
  | nothing | reported => exact Or.inl member
  | applied own complete held closed ended =>
      obtain ⟨reply, acts⟩ := complete.acts
      simp only [ApiDb.apply, List.mem_append, List.mem_singleton] at member
      refine member.imp_right ?_
      rintro rfl
      exact ⟨acts.request, _, held, by rw [complete.holds]⟩

theorem Slot.handle_versions {catalog : Catalog} {request : ActionRequest} {reached : Bool}
    (holds : met) : (Slot.handle packages catalog index request reached).VersionTracks met := by
  cases handled : Slot.handle packages catalog index request reached with
  | invoking flight =>
      obtain ⟨_, _, closed⟩ := Slot.handle_looked handled
      refine ⟨fun _ => holds, fun effect carried => ?_⟩
      rw [closed] at carried
      exact absurd carried Flight.not_carries_closed
  | free | received | turnedAway => exact holds

theorem Api.VersionTracked.statement (tracked : api.VersionTracked packages index met)
    (other : Nat) (input : Input) :
    (Api.step packages registered api (.statement other input)).VersionTracked packages index
      (met ∧ api.strays index (.statement other input) = false) := by
  have versioned : (Api.step packages registered api (.statement other input)).Versioned
    packages := tracked.versioned.step (.statement other input)
  unfold Api.step at versioned ⊢
  dsimp only at versioned ⊢
  split at versioned
  · rename_i flight phase
    have move := Flight.step_move packages api.shared flight (api.blocked other flight) input
    obtain ⟨whole, numbered⟩ := tracked.versioned.sound.flights other flight phase
    have grown := (move.writes whole).effects
    by_cases same : index = other
    · subst same
      have strays : api.strays index (.statement index input) =
          flight.strays api.shared.catalog input := by
        simp [Api.strays, phase]
      have own := tracked.own
      rw [phase] at own
      have looked := tracked.versioned.looked index flight phase
      have unique := tracked.versioned.unique
      have kept := Flight.VersionTracks.move own whole looked unique move
      refine ⟨versioned, ?_, ?_⟩
      · rw [strays, World.turn_own]
        exact kept
      · intro effect member request
        have settled : flight.strays api.shared.catalog input = false ∧ (effect.Checked ↔ met) := by
          rcases grown effect member with earlier | ⟨_, carried⟩
          · obtain ⟨held, slot, ended, _⟩ := tracked.versioned.sound.applied effect earlier
            rw [request, phase, Slot.invoking.injEq] at slot
            subst slot
            exact ⟨flight.ended_stays ended, tracked.applied effect earlier request⟩
          · refine ⟨?_, own.carried effect carried⟩
            by_contra moved
            exact whole.uncarried (by simpa using moved) carried
        rw [strays, settled.1, settled.2]
        simp
    · have calm : api.strays index (.statement other input) = false := by
        simp [Api.strays, Ne.symm same]
      simp only [calm, and_true]
      refine ⟨versioned, ?_, ?_⟩
      · rw [World.turn_other _ _ _ same]
        exact tracked.own
      · intro effect member request
        rcases grown effect member with earlier | ⟨foreign, _⟩
        · exact tracked.applied effect earlier request
        · exact absurd (request.symm.trans (foreign.trans numbered)) same
  · rename_i idle
    have calm : api.strays index (.statement other input) = false := by
      by_cases same : index = other
      · subst same
        cases slot : api.party index with
        | invoking flight => exact absurd slot (idle flight)
        | free | received | turnedAway => simp [Api.strays, slot]
      · simp [Api.strays, Ne.symm same]
    simp only [calm, and_true]
    exact tracked

theorem Api.VersionTracked.step (tracked : api.VersionTracked packages index met)
    (event : ApiEvent) : (Api.step packages registered api event).VersionTracked packages index
      (met ∧ api.strays index event = false) := by
  have versioned : (Api.step packages registered api event).Versioned packages :=
    tracked.versioned.step event
  cases event with
  | statement other input => exact tracked.statement other input
  | catalog call =>
      simp only [Api.strays, and_true]
      exact ⟨versioned, tracked.own, tracked.applied⟩
  | receive request =>
      simp only [Api.strays, and_true]
      refine ⟨versioned, ?_, tracked.applied⟩
      have own := tracked.own
      by_cases same : index = api.shared.received
      · subst same
        rw [tracked.versioned.sound.fresh _ (Nat.le_refl _)] at own
        rw [Api.step, World.turn_own]
        exact own
      · rw [Api.step, World.turn_other _ _ _ same]
        exact own
  | handle other reached =>
      simp only [Api.strays, and_true]
      unfold Api.step at versioned ⊢
      dsimp only at versioned ⊢
      split at versioned
      · rename_i request phase
        refine ⟨versioned, ?_, tracked.applied⟩
        have own := tracked.own
        by_cases same : index = other
        · subst same
          rw [phase] at own
          rw [World.turn_own]
          exact Slot.handle_versions own
        · rw [World.turn_other _ _ _ same]
          exact own
      · exact tracked

theorem Api.reached_versions (packages : Packages) (registered : String → String → Bool)
    {catalog : Catalog} (unique : catalog.keys.Nodup) (events : List ApiEvent) (index : Nat) :
    Api.VersionTracked packages index
      (Runs.run (Api.step packages registered) (Api.start catalog) events)
      (Runs.Guarded (Api.step packages registered)
        (fun api event => api.strays index event = false) (Api.start catalog) events) := by
  have start : Api.Versioned packages (Api.start catalog) := by
    refine ⟨Api.start_sound packages catalog, unique, ?_, ?_, ?_⟩
    · intro other flight phase
      cases phase
    · intro row member
      cases member
    · intro other flight body phase
      cases phase
  have tracked := @Runs.guarded_tracked Api ApiEvent (Api.step packages registered)
    (fun api event => api.strays index event = false) (Api.VersionTracked packages index)
    (fun api event met tracked => tracked.step event) events (Api.start catalog) True
    ⟨start, trivial, by intro effect member; cases member⟩
  simpa only [true_and] using tracked

end Runs

structure Api.Agrees (api : Api) (effect : Effect) : Prop where
  checked : effect.Checked
  dispatched : ∀ row ∈ api.shared.dispatches, row.correlationId = effect.request →
    row.version = effect.executed.version
  answered : ∀ flight body, api.party effect.request = .invoking flight →
    flight.phase = .answered (.ok body) → body.actionVersion = effect.executed.version

theorem version_agrees (packages : Packages) (registered : String → String → Bool)
    (catalog : Catalog) (unique : catalog.keys.Nodup) (events : List ApiEvent) (effect : Effect)
    (committed : effect ∈
      (Runs.run (Api.step packages registered) (Api.start catalog) events).shared.effects) :
    (Runs.run (Api.step packages registered) (Api.start catalog) events).Agrees effect ↔
      Runs.Guarded (Api.step packages registered)
        (fun api event => api.strays effect.request event = false) (Api.start catalog) events := by
  obtain ⟨versioned, _, applied⟩ :=
    Api.reached_versions packages registered unique events effect.request
  refine Iff.trans ?_ (applied effect committed rfl)
  refine ⟨Api.Agrees.checked, fun checked => ?_⟩
  obtain ⟨flight, phase, _, _, state, entry⟩ := versioned.sound.applied effect committed
  have version : effect.executed.version = flight.state.version := by
    have keys := Catalog.key_of_contract checked
    simp only [ActionManifest.key, Prod.mk.injEq] at keys
    rw [keys.2.2, ← entry]
    exact (versioned.looked effect.request flight phase).version
  refine ⟨checked, ?_, ?_⟩
  · intro row member same
    obtain ⟨other, held, recorded⟩ := versioned.dispatched row member
    rw [same, phase, Slot.invoking.injEq] at held
    rw [recorded, ← held, version]
  · intro other body held ended
    have reported := versioned.answered effect.request other body held ended
    rw [phase, Slot.invoking.injEq] at held
    rw [reported, ← held, version]

namespace Seed

def secondManifest : ActionManifest :=
  { requestManifest with version := 2, enabled := false, isDefault := false }

def overtaken : List ApiEvent :=
  [.receive (paymentRequest "10.00"), .handle 0 true, .statement 0 (.begin none),
    .statement 0 (.claim none), .catalog (.activate "payment" "request" 2),
    .statement 0 (.invoke (.returned (some createdEnvelope)) none), .statement 0 (.log none),
    .statement 0 (.store none), .statement 0 (.commit none)]

def paymentEffect (executed : ActionManifest) : Effect where
  request := 0
  state := answeredFlight.state
  entry := requestManifest
  executed := executed
  value := some createdEnvelope

end Seed

theorem version_agrees_request :
    (Runs.run (Api.step Seed.packages Seed.registered) (Api.start [Seed.requestManifest])
      (.receive (Seed.paymentRequest "10.00") :: Seed.paymentCall 0 none)).Agrees
      (Seed.paymentEffect Seed.requestManifest) :=
  (version_agrees Seed.packages Seed.registered [Seed.requestManifest] (by decide)
    (.receive (Seed.paymentRequest "10.00") :: Seed.paymentCall 0 none)
    (Seed.paymentEffect Seed.requestManifest) (by decide +kernel)).mpr (by decide +kernel)

theorem version_disagrees :
    ¬ ∀ (packages : Packages) (registered : String → String → Bool) (catalog : Catalog)
      (_ : catalog.keys.Nodup) (events : List ApiEvent) (effect : Effect),
      effect ∈ (Runs.run (Api.step packages registered) (Api.start catalog) events).shared.effects →
      effect.state.explicitVersion = none →
      (Runs.run (Api.step packages registered) (Api.start catalog) events).Agrees effect := by
  intro agrees
  have checked := (agrees Seed.packages Seed.registered
    [Seed.requestManifest, Seed.secondManifest] (by decide) Seed.overtaken
    (Seed.paymentEffect { Seed.secondManifest with enabled := true, isDefault := true })
    (by decide +kernel) rfl).checked
  exact absurd checked (by decide)

end PaymentWorkflow
