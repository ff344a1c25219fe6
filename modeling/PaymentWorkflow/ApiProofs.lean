import PaymentWorkflow.InvokerProofs
import PaymentWorkflow.Runs

/-! The API past whole runs: what the committed tables hold in every state it can reach. -/

namespace PaymentWorkflow

open Interleaving

def ApiDb.apply (db : ApiDb) (effect : Effect) (outcome : String) : ApiDb :=
  { db with
    idempotency := db.idempotency ++ effect.row?.toList
    effects := db.effects ++ [effect]
    dispatches := db.dispatches ++ [effect.state.dispatchRow .ok (some outcome)] }

def ApiDb.keys (db : ApiDb) : List (String × String) := db.idempotency.map IdempotencyRow.key

def Flight.Ended (flight : Flight) : Prop := ∃ answer, flight.phase = .answered answer

namespace Flight

variable {packages : Packages} {db later : ApiDb} {blocked : Bool} {flight after : Flight}
  {input : Input}

theorem Move.state (move : Move packages db blocked flight input later after) :
    after.state = flight.state ∧ after.entry = flight.entry := by
  cases move with
  | failed before thrown fails => exact ⟨thrown.state, thrown.entry⟩
  | logged accepted wrote continued => exact ⟨wrote.hit.1, wrote.hit.2.1⟩
  | stored logged wrote => exact ⟨wrote.hit.1, wrote.hit.2.1⟩
  | _ => exact ⟨rfl, rfl⟩

theorem Move.ended (move : Move packages db blocked flight input later after)
    (ended : flight.Ended) : after.phase = flight.phase ∧
      (flight.session = .closed → later = db ∧ after.session = .closed) := by
  obtain ⟨answer, phase⟩ := ended
  cases move with
  | rested | expired => exact ⟨rfl, fun closed => ⟨rfl, closed⟩⟩
  | dropped live => exact ⟨rfl, fun _ => ⟨rfl, rfl⟩⟩
  | settled committing =>
      refine ⟨rfl, fun closed => ?_⟩
      cases closed.symm.trans committing
  | failed before thrown fails =>
      rw [phase] at before
      rcases before with before | before | before <;> cases before
  | refused before fails =>
      rw [phase] at before
      rcases before with before | before <;> cases before
  | begun start | begunUnkeyed start | claimed start | conflicted start | cleared start
  | replayed start | invoked start | rolledBack start | unreached start | reported start
  | logged start | clashed start | stored start | committed start | undone start
  | inDoubt start | unsent start =>
      rw [phase] at start
      cases start

inductive Writes (packages : Packages) (db : ApiDb) (flight after : Flight) : ApiDb → Prop
  | nothing : Writes packages db flight after db
  | reported {outcome : Option String} (ended : after.Ended) : Writes packages db flight after
      { db with dispatches := db.dispatches ++ [flight.state.dispatchRow .error outcome] }
  | applied {transaction : Transaction} (effect : Effect) {outcome : String} {result : Json}
      (complete : Complete packages flight transaction effect outcome result)
      (held : flight.session = .live transaction ∨ flight.session = .committing transaction)
      (closed : after.session = .closed) (ended : after.Ended) :
      Writes packages db flight after (db.apply effect outcome)

theorem commit_complete {transaction : Transaction} {effect : Effect} {outcome : String}
    {result : Json} (complete : Complete packages flight transaction effect outcome result) :
    db.commit transaction = db.apply effect outcome := by
  obtain ⟨reply, acts⟩ := complete.acts
  simp only [complete.holds, ApiDb.commit, ApiDb.apply, acts.state]
  rfl

theorem commit_lost : db.commit lost = db := rfl

theorem Move.writes (move : Move packages db blocked flight input later after)
    (sound : flight.Sound packages) : Writes packages db flight after later := by
  cases move with
  | reported rolledBack =>
      split
      · exact Writes.reported ⟨_, rfl⟩
      · exact Writes.nothing
  | committed stored whole running live =>
      rename_i outcome result transaction
      rcases sound.live transaction live with gone | ⟨_, expects⟩
      · rw [gone, commit_lost]
        exact Writes.nothing
      · simp only [Expects, stored, running, whole] at expects
        obtain ⟨_, late | cut | ⟨effect, complete⟩⟩ := expects
        · cases late
        · cases cut
        · rw [commit_complete complete]
          exact Writes.applied effect complete (Or.inl live) rfl ⟨_, rfl⟩
  | settled committing =>
      rename_i transaction committed
      split
      · obtain ⟨⟨answer, answered⟩, content⟩ := sound.committing transaction committing
        rcases content with gone | ⟨effect, outcome, result, complete⟩
        · rw [gone, commit_lost]
          exact Writes.nothing
        · rw [commit_complete complete]
          exact Writes.applied effect complete (Or.inr committing) rfl ⟨answer, answered⟩
      · exact Writes.nothing
  | _ => exact Writes.nothing

theorem owns_holds {transaction : Transaction} {key : String × String}
    (owns : flight.Owns transaction) (holds : transaction.holds key = true) :
    flight.key? = some key := by
  rcases owns with none | ⟨response, row⟩
  · simp [Transaction.holds, none] at holds
  · rw [Transaction.holds, row] at holds
    cases keyed : flight.state.idempotencyScopeKey with
    | none => simp [claimRow, keyed] at holds
    | some scopeKey =>
        simp only [claimRow, keyed, Option.map_some, Option.any_some, decide_eq_true_eq] at holds
        simp only [key?, keyed, Option.map_some, ← holds]
        rfl

theorem Sound.holds (sound : flight.Sound packages) {key : String × String}
    (holds : flight.session.holds key = true) : flight.key? = some key := by
  unfold Connection.holds at holds
  split at holds
  · cases holds
  · rename_i transaction live
    exact owns_holds (sound.owns (Or.inl live)) holds
  · rename_i transaction committing
    exact owns_holds (sound.owns (Or.inr committing)) holds

theorem Hit.holds (hit : Hit flight after) {key : String × String}
    (holds : after.session.holds key = true) : flight.session.holds key = true := by
  rcases hit.session with same | ⟨_, aborted⟩
  · rw [← same]
    exact holds
  · rw [aborted] at holds
    cases holds

theorem Bookkept.holds {fault : Option Fault} {write : Transaction → Transaction}
    (kept : Bookkept flight fault write after) {key : String × String}
    (same : ∀ transaction, (write transaction).holds key = transaction.holds key)
    (holds : after.session.holds key = true) : flight.session.holds key = true := by
  cases kept with
  | wrote whole running live =>
      rw [live]
      exact (same _).symm.trans holds
  | threw thrown => exact (execute_error thrown).holds holds

theorem stored?_none {scopeKey requestId : String}
    (absent : db.stored? scopeKey requestId = none) : (scopeKey, requestId) ∉ db.keys := by
  intro member
  obtain ⟨row, present, keyed⟩ := List.mem_map.mp member
  have missed := List.find?_eq_none.mp absent row present
  simp [keyed] at missed

/-- A flight comes to hold a key only by a claim that found it neither taken nor stored. -/
theorem Move.holds (move : Move packages db blocked flight input later after)
    {key : String × String} (holds : after.session.holds key = true) :
    flight.session.holds key = true ∨
      blocked = false ∧ flight.key? = some key ∧ key ∉ db.keys := by
  cases move with
  | rested | expired | refused | replayed | unreached | reported | unsent => exact Or.inl holds
  | dropped | begun | begunUnkeyed | conflicted | cleared | rolledBack | clashed | committed
  | undone | settled => cases holds
  | failed before thrown fails => exact Or.inl (thrown.holds holds)
  | claimed begun keyed live healthy free absent =>
      rename_i scopeKey transaction
      refine Or.inr ⟨free, ?_⟩
      have own : flight.key? = some key := owns_holds (Or.inr ⟨none, rfl⟩) holds
      refine ⟨own, ?_⟩
      simp only [key?, keyed, Option.map_some, Option.some.injEq] at own
      rw [← own]
      exact stored?_none absent
  | invoked claimed whole running live healthy called =>
      rw [live]
      exact Or.inl holds
  | logged accepted wrote continued => exact Or.inl (wrote.holds (fun _ => rfl) holds)
  | stored logged wrote =>
      refine Or.inl (wrote.holds (fun transaction => ?_) holds)
      simp only [Transaction.holds]
      cases transaction.claim <;> rfl
  | inDoubt stored whole running live fails =>
      rw [live]
      exact Or.inl holds

end Flight

def Slot.Over (slot : Slot) (state : RequestState) (entry : ActionManifest) : Prop :=
  ∃ flight, slot = .invoking flight ∧ flight.Ended ∧ flight.session = .closed ∧
    flight.state = state ∧ flight.entry = entry

structure ApiDb.Records (packages : Packages) (db : ApiDb) (effect : Effect) : Prop where
  accepted : ∃ reply outcome result, effect.value = some reply ∧ hasStatus reply = true ∧
    checkEnvelope packages effect.entry reply = .ok (.accepted outcome result) ∧
    effect.state.dispatchRow .ok (some outcome) ∈ db.dispatches
  stored : ∀ row, effect.row? = some row → row ∈ db.idempotency

inductive Slot.Writes (packages : Packages) (db : ApiDb) (index : Nat) (before after : Slot) :
    ApiDb → Prop
  | nothing : Writes packages db index before after db
  | reported {row : DispatchRow} (numbered : row.correlationId = index)
      (ended : ∃ flight, after = .invoking flight ∧ flight.Ended) :
      Writes packages db index before after { db with dispatches := db.dispatches ++ [row] }
  | applied (effect : Effect) {reply result : Json} {outcome : String}
      (numbered : effect.request = index) (own : effect.state.correlationId = index)
      (value : effect.value = some reply) (status : hasStatus reply = true)
      (accepted : checkEnvelope packages effect.entry reply = .ok (.accepted outcome result))
      (held : ∀ key, effect.key? = some key → before.holds key = true)
      (released : ∀ key, after.holds key = false)
      (past : after.Over effect.state effect.entry) :
      Writes packages db index before after (db.apply effect outcome)

theorem row?_key {effect : Effect} {row : IdempotencyRow} (stored : effect.row? = some row) :
    effect.key? = some row.key := by
  cases keyed : effect.state.idempotencyScopeKey with
  | none => simp [Effect.row?, keyed] at stored
  | some scopeKey =>
      simp only [Effect.row?, keyed, Option.map_some, Option.some.injEq] at stored
      simp only [Effect.key?, keyed, Option.map_some, ← stored]
      rfl

section Written

variable {packages : Packages} {db shared : ApiDb} {index : Nat} {before after : Slot}

theorem Slot.Writes.stored (writes : Slot.Writes packages db index before after shared)
    (stored : db.idempotency = db.effects.filterMap Effect.row?) :
    shared.idempotency = shared.effects.filterMap Effect.row? := by
  cases writes with
  | nothing | reported => exact stored
  | applied effect =>
      simp only [ApiDb.apply, List.filterMap_append, ← stored]
      cases row : effect.row? <;> simp [row]

theorem Slot.Writes.keys (writes : Slot.Writes packages db index before after shared) :
    ∀ key ∈ shared.keys, key ∈ db.keys ∨
      before.holds key = true ∧ ∀ other, after.holds other = false := by
  intro key member
  cases writes with
  | nothing | reported => exact Or.inl member
  | applied effect numbered own value status accepted held released past =>
      simp only [ApiDb.keys, ApiDb.apply, List.map_append, List.mem_append] at member
      refine member.imp_right fun added => ⟨?_, released⟩
      obtain ⟨row, present, same⟩ := List.mem_map.mp added
      rw [← same]
      exact held row.key (row?_key (by simpa using present))

theorem Slot.Writes.unique (writes : Slot.Writes packages db index before after shared)
    (unique : db.keys.Nodup) (absent : ∀ key, before.holds key = true → key ∉ db.keys) :
    shared.keys.Nodup := by
  cases writes with
  | nothing | reported => exact unique
  | applied effect numbered own value status accepted held released past =>
      cases stored : effect.row? with
      | none => simpa [ApiDb.keys, ApiDb.apply, stored] using unique
      | some row =>
          have missing := absent row.key (held row.key (row?_key stored))
          simp only [ApiDb.keys] at unique missing
          simp only [ApiDb.keys, ApiDb.apply, stored, Option.toList_some, List.map_append,
            List.map_cons, List.map_nil]
          rw [List.nodup_append]
          refine ⟨unique, List.nodup_singleton _, ?_⟩
          intro left inside right single same
          rw [List.mem_singleton] at single
          exact missing (by rw [← single, ← same]; exact inside)

theorem Slot.Writes.effects (writes : Slot.Writes packages db index before after shared) :
    ∀ effect ∈ shared.effects, effect ∈ db.effects ∨
      effect.request = index ∧ after.Over effect.state effect.entry := by
  intro other member
  cases writes with
  | nothing | reported => exact Or.inl member
  | applied effect numbered own value status accepted held released past =>
      simp only [ApiDb.apply, List.mem_append, List.mem_singleton] at member
      refine member.imp_right fun same => ?_
      subst same
      exact ⟨numbered, past⟩

theorem Slot.Writes.dispatches (writes : Slot.Writes packages db index before after shared) :
    ∀ row ∈ shared.dispatches, row ∈ db.dispatches ∨
      row.correlationId = index ∧ ∃ flight, after = .invoking flight ∧ flight.Ended := by
  intro other member
  cases writes with
  | nothing => exact Or.inl member
  | reported numbered ended =>
      simp only [List.mem_append, List.mem_singleton] at member
      refine member.imp_right fun same => ?_
      subst same
      exact ⟨numbered, ended⟩
  | applied effect numbered own value status accepted held released past =>
      simp only [ApiDb.apply, List.mem_append, List.mem_singleton] at member
      refine member.imp_right fun same => ?_
      subst same
      obtain ⟨flight, phase, ended, _⟩ := past
      exact ⟨own, flight, phase, ended⟩

theorem Slot.Writes.records (writes : Slot.Writes packages db index before after shared)
    (recorded : ∀ effect ∈ db.effects, db.Records packages effect) :
    ∀ effect ∈ shared.effects, shared.Records packages effect := by
  intro other member
  cases writes with
  | nothing => exact recorded other member
  | reported numbered ended =>
      obtain ⟨⟨reply, outcome, result, value, status, accepted, logged⟩, stored⟩ :=
        recorded other member
      exact ⟨⟨reply, outcome, result, value, status, accepted, List.mem_append_left _ logged⟩, stored⟩
  | applied effect numbered own value status accepted held released past =>
      rename_i reply result outcome
      rcases List.mem_append.mp member with earlier | added
      · obtain ⟨⟨reply, outcome, result, value, status, accepted, logged⟩, stored⟩ :=
          recorded other earlier
        exact ⟨⟨reply, outcome, result, value, status, accepted, List.mem_append_left _ logged⟩,
          fun row found => List.mem_append_left _ (stored row found)⟩
      · rw [List.mem_singleton] at added
        subst added
        refine ⟨⟨reply, outcome, result, value, status, accepted, ?_⟩, ?_⟩
        · exact List.mem_append_right _ (List.mem_singleton.mpr rfl)
        · intro row found
          exact List.mem_append_right _ (by simp [found])

end Written

structure Api.Sound (packages : Packages) (api : Api) : Prop where
  fresh : ∀ index, api.shared.received ≤ index → api.party index = .free
  flights : ∀ index flight, api.party index = .invoking flight →
    flight.Sound packages ∧ flight.state.correlationId = index
  stored : api.shared.idempotency = api.shared.effects.filterMap Effect.row?
  unique : api.shared.keys.Nodup
  absent : ∀ index key, (api.party index).holds key = true → key ∉ api.shared.keys
  apart : ∀ left right, left ≠ right → ∀ key, (api.party left).holds key = true →
    (api.party right).holds key = false
  applied : ∀ effect ∈ api.shared.effects,
    (api.party effect.request).Over effect.state effect.entry
  logged : ∀ row ∈ api.shared.dispatches, ∃ flight,
    api.party row.correlationId = .invoking flight ∧ flight.Ended
  recorded : ∀ effect ∈ api.shared.effects, api.shared.Records packages effect

theorem Api.start_sound (packages : Packages) (catalog : Catalog) :
    (Api.start catalog).Sound packages where
  fresh := fun _ _ => rfl
  flights := by intro index flight phase; cases phase
  stored := rfl
  unique := List.nodup_nil
  absent := by intro index key holds; cases holds
  apart := by intro left right _ key holds; cases holds
  applied := by intro effect member; cases member
  logged := by intro row member; cases member
  recorded := by intro effect member; cases member

theorem checkRequest_numbered {packages : Packages} {index : Nat} {request : ActionRequest}
    {found : Option ActionManifest} {state : RequestState} {entry : ActionManifest}
    (checked : checkRequest packages index request found = .ok (state, entry)) :
    state.correlationId = index := by
  unfold checkRequest at checked
  split at checked
  · cases checked
  · split at checked
    · cases checked
    · split at checked
      · cases checked
      · split at checked
        · cases checked
        · split at checked
          · cases checked
          · cases checked
            rfl

namespace Api.Sound

variable {packages : Packages} {registered : String → String → Bool} {api : Api}

theorem receive (sound : api.Sound packages) (request : ActionRequest) :
    (Api.step packages registered api (.receive request)).Sound packages := by
  have free := sound.fresh api.shared.received (Nat.le_refl _)
  have other : ∀ {index flight}, api.party index = .invoking flight →
      index ≠ api.shared.received := by
    intro index flight phase same
    rw [same, free] at phase
    cases phase
  have unchanged : ∀ index key, ((Api.step packages registered api (.receive request)).party
      index).holds key = (api.party index).holds key := by
    intro index key
    by_cases same : index = api.shared.received
    · subst same
      simp [Api.step, free, Slot.holds]
    · simp [Api.step, same]
  refine { fresh := ?_, flights := ?_, stored := sound.stored, unique := sound.unique,
           absent := ?_, apart := ?_, applied := ?_, logged := ?_, recorded := ?_ }
  · intro index beyond
    have late : api.shared.received + 1 ≤ index := beyond
    have different : index ≠ api.shared.received := by omega
    rw [Api.step, World.turn_other _ _ _ different]
    exact sound.fresh index (by omega)
  · intro index flight phase
    by_cases same : index = api.shared.received
    · subst same
      simp [Api.step] at phase
    · rw [Api.step, World.turn_other _ _ _ same] at phase
      exact sound.flights index flight phase
  · intro index key holds
    rw [unchanged] at holds
    exact sound.absent index key holds
  · intro left right different key holds
    rw [unchanged] at holds ⊢
    exact sound.apart left right different key holds
  · intro effect member
    obtain ⟨flight, phase, rest⟩ := sound.applied effect member
    refine ⟨flight, ?_, rest⟩
    rw [Api.step, World.turn_other _ _ _ (other phase)]
    exact phase
  · intro row member
    obtain ⟨flight, phase, ended⟩ := sound.logged row member
    refine ⟨flight, ?_, ended⟩
    rw [Api.step, World.turn_other _ _ _ (other phase)]
    exact phase
  · intro effect member
    have kept := sound.recorded effect member
    exact ⟨kept.accepted, kept.stored⟩

/-- A slot that takes its turn keeps the invariant if it keeps its own part of it, and comes
to hold only what nobody else holds. -/
theorem turn (sound : api.Sound packages) {index : Nat} {slot : Slot} {shared : ApiDb}
    (known : index < api.shared.received)
    (own : ∀ flight, slot = .invoking flight →
      flight.Sound packages ∧ flight.state.correlationId = index)
    (holding : ∀ key, slot.holds key = true → (api.party index).holds key = true ∨
      (∀ other, other ≠ index → (api.party other).holds key = false) ∧ key ∉ api.shared.keys)
    (past : ∀ state entry, (api.party index).Over state entry → slot.Over state entry)
    (ended : ∀ flight, api.party index = .invoking flight → flight.Ended →
      ∃ after, slot = .invoking after ∧ after.Ended)
    (writes : Slot.Writes packages api.shared index (api.party index) slot shared) :
    Api.Sound packages (api.turn index shared slot) := by
  have alone : ∀ key, slot.holds key = true → ∀ other, other ≠ index →
      (api.party other).holds key = false := by
    intro key holds other different
    rcases holding key holds with held | ⟨free, _⟩
    · exact sound.apart index other different.symm key held
    · exact free other different
  have received : shared.received = api.shared.received := by cases writes <;> rfl
  refine { fresh := ?_, flights := ?_, stored := ?_, unique := ?_,
           absent := ?_, apart := ?_, applied := ?_, logged := ?_, recorded := ?_ }
  · intro other beyond
    rw [World.turn_shared, received] at beyond
    rw [World.turn_other _ _ _ (by omega)]
    exact sound.fresh other beyond
  · intro other flight phase
    by_cases same : other = index
    · subst same
      rw [World.turn_own] at phase
      exact own flight phase
    · rw [World.turn_other _ _ _ same] at phase
      exact sound.flights other flight phase
  · exact writes.stored sound.stored
  · exact writes.unique sound.unique (sound.absent index)
  · intro other key holds member
    rcases writes.keys key member with earlier | ⟨held, released⟩
    · by_cases same : other = index
      · subst same
        rw [World.turn_own] at holds
        rcases holding key holds with before | ⟨_, missing⟩
        · exact sound.absent other key before earlier
        · exact missing earlier
      · rw [World.turn_other _ _ _ same] at holds
        exact sound.absent other key holds earlier
    · by_cases same : other = index
      · subst same
        rw [World.turn_own, released] at holds
        cases holds
      · rw [World.turn_other _ _ _ same,
          sound.apart index other (Ne.symm same) key held] at holds
        cases holds
  · intro left right different key holds
    by_cases first : left = index
    · subst first
      rw [World.turn_own] at holds
      rw [World.turn_other _ _ _ different.symm]
      exact alone key holds right different.symm
    · rw [World.turn_other _ _ _ first] at holds
      by_cases second : right = index
      · subst second
        rw [World.turn_own]
        by_contra taken
        have absent := alone key (by simpa using taken) left first
        rw [holds] at absent
        cases absent
      · rw [World.turn_other _ _ _ second]
        exact sound.apart left right different key holds
  · intro effect member
    rcases writes.effects effect member with earlier | ⟨numbered, finished⟩
    · have settled := sound.applied effect earlier
      by_cases same : effect.request = index
      · rw [same] at settled ⊢
        rw [World.turn_own]
        exact past _ _ settled
      · rw [World.turn_other _ _ _ same]
        exact settled
    · rw [numbered, World.turn_own]
      exact finished
  · intro row member
    rcases writes.dispatches row member with earlier | ⟨numbered, finished⟩
    · obtain ⟨flight, phase, finished⟩ := sound.logged row earlier
      by_cases same : row.correlationId = index
      · rw [same] at phase ⊢
        rw [World.turn_own]
        exact ended flight phase finished
      · rw [World.turn_other _ _ _ same]
        exact ⟨flight, phase, finished⟩
    · rw [numbered, World.turn_own]
      exact finished
  · exact writes.records sound.recorded

theorem known (sound : api.Sound packages) {index : Nat} (busy : api.party index ≠ .free) :
    index < api.shared.received := by
  by_contra beyond
  exact busy (sound.fresh index (by omega))

theorem unblocked (sound : api.Sound packages) {index : Nat} {flight : Flight}
    {key : String × String} (free : api.blocked index flight = false)
    (keyed : flight.key? = some key) (other : Nat) (different : other ≠ index) :
    (api.party other).holds key = false := by
  by_cases late : api.shared.received ≤ other
  · rw [sound.fresh other late]
    rfl
  · by_contra taken
    have taken : (api.party other).holds key = true := by simpa using taken
    obtain ⟨scopeKey, present, rfl⟩ := Option.map_eq_some_iff.mp keyed
    have waits : api.blocked index flight = true := by
      simp only [Api.blocked, present, Option.any_some, List.any_eq_true, List.mem_range,
        Bool.and_eq_true, decide_eq_true_eq]
      exact ⟨other, by omega, different, taken⟩
    rw [free] at waits
    cases waits

theorem statement (sound : api.Sound packages) {index : Nat} {flight after : Flight}
    {shared : ApiDb} {input : Input} (phase : api.party index = .invoking flight)
    (move : Flight.Move packages api.shared (api.blocked index flight) flight input shared after) :
    Api.Sound packages (api.turn index shared (.invoking after)) := by
  obtain ⟨whole, numbered⟩ := sound.flights index flight phase
  obtain ⟨state, entry⟩ := move.state
  have known : index < api.shared.received := sound.known (by rw [phase]; exact Slot.noConfusion)
  refine sound.turn known ?_ ?_ ?_ ?_ ?_
  · intro other same
    cases same
    exact ⟨whole.move move, by rw [state]; exact numbered⟩
  · intro key holds
    rw [phase]
    rcases move.holds holds with held | ⟨free, keyed, missing⟩
    · exact Or.inl held
    · exact Or.inr ⟨sound.unblocked free keyed, missing⟩
  · rintro earlier manifest ⟨other, same, ended, closed, rfl, rfl⟩
    rw [phase, Slot.invoking.injEq] at same
    subst same
    obtain ⟨kept, still⟩ := move.ended ended
    obtain ⟨answer, answered⟩ := ended
    exact ⟨after, rfl, ⟨answer, kept.trans answered⟩, (still closed).2, state, entry⟩
  · intro other same ended
    rw [phase, Slot.invoking.injEq] at same
    subst same
    obtain ⟨answer, answered⟩ := ended
    exact ⟨after, rfl, answer, (move.ended ⟨answer, answered⟩).1.trans answered⟩
  · rcases move.writes whole with _ | ended | ⟨effect, complete, held, closed, ended⟩
    · exact Slot.Writes.nothing
    · exact Slot.Writes.reported numbered ⟨after, rfl, ended⟩
    · rename_i transaction outcome result
      obtain ⟨reply, acts⟩ := complete.acts
      refine Slot.Writes.applied effect (acts.request.trans numbered)
        (by rw [acts.state]; exact numbered) acts.value acts.status
        (by rw [acts.entry]; exact acts.accepted) ?_ ?_ ?_
      · intro key keyed
        rw [phase]
        have holds : transaction.holds key = true := by
          obtain ⟨scopeKey, present, rfl⟩ := Option.map_eq_some_iff.mp keyed
          rw [complete.holds]
          simp only [Transaction.holds, Effect.row?, present, Option.map_some, Option.any_some,
            decide_eq_true_eq]
          rfl
        rcases held with live | committing
        · simpa only [Slot.holds, live, Connection.holds] using holds
        · simpa only [Slot.holds, committing, Connection.holds] using holds
      · intro key
        simp only [Slot.holds, closed]
        rfl
      · exact ⟨after, rfl, ended, closed, state.trans acts.state.symm,
          entry.trans acts.entry.symm⟩

theorem handle (sound : api.Sound packages) (index : Nat) (reached : Bool) :
    (Api.step packages registered api (.handle index reached)).Sound packages := by
  unfold Api.step
  dsimp only
  split
  · rename_i request phase
    have known : index < api.shared.received :=
      sound.known (by rw [phase]; exact Slot.noConfusion)
    have fresh : ∀ flight, Slot.handle packages api.shared.catalog index request reached =
        .invoking flight → flight.Sound packages ∧ flight.state.correlationId = index ∧
          flight.session = .closed := by
      intro flight handled
      unfold Slot.handle at handled
      split at handled
      · cases handled
      · split at handled
        · cases handled
        · rename_i state entry checked
          cases handled
          refine ⟨Flight.Sound.of_closed rfl (by simp), ?_, rfl⟩
          exact checkRequest_numbered checked
    refine sound.turn known (fun flight same => ⟨(fresh flight same).1, (fresh flight same).2.1⟩)
      ?_ ?_ ?_ Slot.Writes.nothing
    · intro key holds
      cases slot : Slot.handle packages api.shared.catalog index request reached with
      | invoking flight =>
          rw [slot] at holds
          simp only [Slot.holds, (fresh flight slot).2.2] at holds
          cases holds
      | free | received | turnedAway =>
          rw [slot] at holds
          cases holds
    · rintro state entry ⟨flight, same, _⟩
      rw [phase] at same
      cases same
    · intro flight same
      rw [phase] at same
      cases same
  · exact sound

theorem step (sound : api.Sound packages) (event : ApiEvent) :
    (Api.step packages registered api event).Sound packages := by
  cases event with
  | receive request => exact sound.receive request
  | handle index reached => exact sound.handle index reached
  | statement index input =>
      unfold Api.step
      dsimp only
      split
      · rename_i flight phase
        exact sound.statement phase (Flight.step_move _ _ _ _ _)
      · exact sound
  | catalog call =>
      exact ⟨sound.fresh, sound.flights, sound.stored, sound.unique, sound.absent, sound.apart,
        sound.applied, sound.logged, fun effect member =>
          ⟨(sound.recorded effect member).accepted, (sound.recorded effect member).stored⟩⟩

end Api.Sound

theorem Api.reached_sound (packages : Packages) (registered : String → String → Bool)
    (catalog : Catalog) (events : List ApiEvent) :
    Api.Sound packages (Runs.run (Api.step packages registered) (Api.start catalog) events) :=
  Runs.run_invariant (Api.Sound packages) (fun _ event sound => sound.step event) events _
    (Api.start_sound packages catalog)

end PaymentWorkflow
