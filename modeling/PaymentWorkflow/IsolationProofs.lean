import PaymentWorkflow.IdempotencyProofs
import PaymentWorkflow.VersionProofs

/-! Whose stored response a request can be answered with. -/

namespace PaymentWorkflow

open Interleaving

def IdempotencyScope.identity (auth : AuthContext) : IdempotencyScope → Option String
  | .principalAction => some auth.principal
  | .consumerAction => some auth.consumer
  | .globalAction | .none => Option.none

/-- Both manifests have one scope, and under it both requests have one identity. -/
def SameCaller (first second : ActionRequest) (firstEntry secondEntry : ActionManifest) : Prop :=
  firstEntry.idempotencyScope = secondEntry.idempotencyScope ∧
    firstEntry.idempotencyScope.identity first.auth =
      secondEntry.idempotencyScope.identity second.auth

/-- One manifest tells principals apart, the other consumers, and the principal of the one
request is spelled as the consumer of the other. -/
def Crosses (first second : ActionRequest) (firstEntry secondEntry : ActionManifest) : Prop :=
  (firstEntry.idempotencyScope = .principalAction ∧
      secondEntry.idempotencyScope = .consumerAction ∧
      first.auth.principal = second.auth.consumer) ∨
    (firstEntry.idempotencyScope = .consumerAction ∧
      secondEntry.idempotencyScope = .principalAction ∧
      first.auth.consumer = second.auth.principal)

theorem callerKey_inj {left right module action : String}
    (same : left ++ ":" ++ module ++ "." ++ action = right ++ ":" ++ module ++ "." ++ action) :
    left = right := by
  have texts := congrArg String.toList same
  simp only [String.toList_append, List.append_assoc] at texts
  exact String.ext (List.append_cancel_right texts)

theorem callerKey_ne_global (caller module action : String) :
    caller ++ ":" ++ module ++ "." ++ action ≠ module ++ "." ++ action := by
  intro same
  have lengths := congrArg String.length same
  have colon : ":".length = 1 := rfl
  simp only [String.length_append, colon] at lengths
  omega

/-- On one route two keys are the same for one caller, or for two callers of crossed scopes. -/
theorem buildScopeKey_same {first second : ActionRequest} {firstEntry secondEntry : ActionManifest}
    {scopeKey module action : String}
    (firstKey : buildScopeKey firstEntry first.auth.principal first.auth.consumer module action =
      some scopeKey)
    (secondKey : buildScopeKey secondEntry second.auth.principal second.auth.consumer module
      action = some scopeKey) :
    SameCaller first second firstEntry secondEntry ↔
      ¬ Crosses first second firstEntry secondEntry := by
  simp only [buildScopeKey] at firstKey secondKey
  simp only [SameCaller, Crosses]
  cases left : firstEntry.idempotencyScope <;> cases right : secondEntry.idempotencyScope <;>
    simp only [left, right, Option.some.injEq, reduceCtorEq] at firstKey secondKey <;>
    subst firstKey <;>
    simp only [IdempotencyScope.identity, reduceCtorEq, false_and, true_and, and_true, or_false,
      false_or, not_false_eq_true, not_not, Option.some.injEq, false_iff, iff_true]
  · exact (callerKey_inj secondKey).symm
  · exact (callerKey_inj secondKey).symm
  · exact absurd secondKey.symm (callerKey_ne_global _ _ _)
  · exact (callerKey_inj secondKey).symm
  · exact (callerKey_inj secondKey).symm
  · exact absurd secondKey.symm (callerKey_ne_global _ _ _)
  · exact absurd secondKey (callerKey_ne_global _ _ _)
  · exact absurd secondKey (callerKey_ne_global _ _ _)

/-! What the API holds of a request goes back to one it received. -/

def arrivals (events : List ApiEvent) : List ActionRequest :=
  events.filterMap fun
    | .receive request => some request
    | _ => none

def Slot.Remembers (packages : Packages) (index : Nat) (arrived : Option ActionRequest) :
    Slot → Prop
  | .received request => arrived = some request
  | .invoking flight => ∃ request, arrived = some request ∧
      checkRequest packages index request (some flight.entry) = .ok (flight.state, flight.entry)
  | .free | .turnedAway _ => True

structure Api.Remembers (packages : Packages) (seen : List ActionRequest) (api : Api) : Prop where
  sound : api.Sound packages
  counted : api.shared.received = seen.length
  slots : ∀ index, (api.party index).Remembers packages index seen[index]?

section Arrivals

variable {packages : Packages} {registered : String → String → Bool} {api : Api}
  {seen : List ActionRequest}

theorem checkRequest_found {index : Nat} {request : ActionRequest} {found : Option ActionManifest}
    {state : RequestState} {entry : ActionManifest}
    (checked : checkRequest packages index request found = .ok (state, entry)) :
    found = some entry ∧ state = RequestState.build packages index request entry := by
  unfold checkRequest at checked
  split at checked
  · cases checked
  split at checked
  · cases checked
  split at checked
  · cases checked
  split at checked
  · cases checked
  split at checked
  · cases checked
  · cases checked
    exact ⟨rfl, rfl⟩

theorem Slot.handle_remembers {catalog : Catalog} {index : Nat} {request : ActionRequest}
    {reached : Bool} :
    (Slot.handle packages catalog index request reached).Remembers packages index
      (some request) := by
  unfold Slot.handle
  split
  · trivial
  split
  · trivial
  · rename_i state entry checked
    refine ⟨request, rfl, ?_⟩
    rw [(checkRequest_found checked).1] at checked
    exact checked

theorem Slot.Remembers.grown {slot : Slot} {index : Nat}
    (remembers : slot.Remembers packages index seen[index]?) (request : ActionRequest) :
    slot.Remembers packages index (seen ++ [request])[index]? := by
  have grown : ∀ earlier, seen[index]? = some earlier →
      (seen ++ [request])[index]? = some earlier := by
    intro earlier found
    obtain ⟨bound, _⟩ := List.getElem?_eq_some_iff.mp found
    rw [List.getElem?_append_left bound]
    exact found
  cases slot with
  | received earlier => exact grown earlier remembers
  | invoking flight =>
      obtain ⟨earlier, found, checked⟩ := remembers
      exact ⟨earlier, grown earlier found, checked⟩
  | free | turnedAway => trivial

theorem Flight.Writes.received {db later : ApiDb} {flight after : Flight}
    (writes : Writes packages db flight after later) : later.received = db.received := by
  cases writes with
  | nothing | reported | applied => rfl

theorem Api.Remembers.step (remembers : api.Remembers packages seen) (event : ApiEvent) :
    (Api.step packages registered api event).Remembers packages (seen ++ arrivals [event]) := by
  have sound : (Api.step packages registered api event).Sound packages :=
    remembers.sound.step event
  cases event with
  | receive request =>
      refine ⟨sound, ?_, fun index => ?_⟩
      · simp [Api.step, arrivals, remembers.counted]
      · by_cases same : index = api.shared.received
        · subst same
          simp [Api.step, arrivals, Slot.Remembers, remembers.counted]
        · simp only [Api.step, World.turn_other _ _ _ same]
          exact (remembers.slots index).grown request
  | handle turning reached =>
      simp only [arrivals, List.filterMap_cons, List.filterMap_nil, List.append_nil]
      simp only [Api.step] at sound ⊢
      split at sound
      · rename_i request phase
        refine ⟨sound, remembers.counted, fun index => ?_⟩
        by_cases same : index = turning
        · subst same
          have arrived := remembers.slots index
          rw [phase] at arrived
          rw [World.turn_own, show seen[index]? = some request from arrived]
          exact Slot.handle_remembers
        · rw [World.turn_other _ _ _ same]
          exact remembers.slots index
      · exact remembers
  | statement turning input =>
      simp only [arrivals, List.filterMap_cons, List.filterMap_nil, List.append_nil]
      simp only [Api.step] at sound ⊢
      split at sound
      · rename_i flight phase
        have move := Flight.step_move packages api.shared flight (api.blocked turning flight) input
        obtain ⟨state, entry⟩ := move.state
        refine ⟨sound, ?_, fun index => ?_⟩
        · rw [World.turn_shared, (move.writes (remembers.sound.flights _ _ phase).1).received]
          exact remembers.counted
        · by_cases same : index = turning
          · subst same
            have arrived := remembers.slots index
            rw [phase] at arrived
            rw [World.turn_own]
            simp only [Slot.Remembers, state, entry] at arrived ⊢
            exact arrived
          · rw [World.turn_other _ _ _ same]
            exact remembers.slots index
      · exact remembers
  | catalog call =>
      simp only [arrivals, List.filterMap_cons, List.filterMap_nil, List.append_nil]
      exact ⟨sound, remembers.counted, remembers.slots⟩

theorem Api.Remembers.run (events : List ApiEvent) :
    ∀ {api : Api} {seen : List ActionRequest}, api.Remembers packages seen →
      (Runs.run (Api.step packages registered) api events).Remembers packages
        (seen ++ arrivals events) := by
  induction events with
  | nil =>
      intro api seen remembers
      simpa [arrivals] using remembers
  | cons event rest ih =>
      intro api seen remembers
      have later := ih (@Api.Remembers.step packages registered api seen remembers event)
      rwa [List.append_assoc, arrivals, arrivals, ← List.filterMap_append] at later

theorem Api.reached_remembers (packages : Packages) (registered : String → String → Bool)
    (catalog : Catalog) (events : List ApiEvent) :
    (Runs.run (Api.step packages registered) (Api.start catalog) events).Remembers packages
      (arrivals events) := by
  have start : (Api.start catalog).Remembers packages [] :=
    ⟨Api.start_sound packages catalog, rfl, fun _ => trivial⟩
  exact start.run events

/-- The key of a request that carries one is the scope key of its manifest. -/
theorem checkRequest_key {index : Nat} {request : ActionRequest} {found : Option ActionManifest}
    {state : RequestState} {entry : ActionManifest} {scopeKey : String}
    (checked : checkRequest packages index request found = .ok (state, entry))
    (keyed : state.idempotencyScopeKey = some scopeKey) :
    buildScopeKey entry request.auth.principal request.auth.consumer request.module
      request.action = some scopeKey := by
  rw [(checkRequest_found checked).2] at keyed
  simp only [RequestState.build] at keyed
  split at keyed
  · exact keyed
  · cases keyed

end Arrivals

def Admits (packages : Packages) (events : List ApiEvent) (index : Nat) (request : ActionRequest)
    (state : RequestState) (entry : ActionManifest) : Prop :=
  (arrivals events)[index]? = some request ∧
    checkRequest packages index request (some entry) = .ok (state, entry)

theorem replay_isolated (packages : Packages) (registered : String → String → Bool)
    (catalog : Catalog) (events : List ApiEvent) (index : Nat) (flight : Flight) (body : OkBody)
    (reached : (Runs.run (Api.step packages registered) (Api.start catalog) events).party index =
      .invoking flight)
    (answered : flight.phase = .answered (.replayed body)) :
    ∃ effect ∈ (Runs.run (Api.step packages registered) (Api.start catalog) events).shared.effects,
      (Answer.replayed body).Backed packages flight.state effect ∧
      (∀ other ∈ (Runs.run (Api.step packages registered) (Api.start catalog)
        events).shared.effects, other.state.key? = flight.state.key? → other = effect) ∧
      ∃ first second, Admits packages events effect.request first effect.state effect.entry ∧
        Admits packages events index second flight.state flight.entry ∧
        (first.module = second.module → first.action = second.action →
          (SameCaller first second effect.entry flight.entry ↔
            ¬ Crosses first second effect.entry flight.entry)) := by
  have remembers := Api.reached_remembers packages registered catalog events
  have tracks := (Api.reached_tracked packages registered catalog events index).2
  rw [reached] at tracks
  simp only [Slot.Tracks, Flight.Tracks, answered] at tracks
  obtain ⟨effect, member, backed⟩ := tracks.2
  obtain ⟨key, storedKey, askedKey⟩ := backed.1
  obtain ⟨storing, phase, _, _, state, entry⟩ := remembers.sound.applied effect member
  have stored := remembers.slots effect.request
  have asked := remembers.slots index
  rw [phase] at stored
  rw [reached] at asked
  obtain ⟨first, firstArrived, firstChecked⟩ := stored
  obtain ⟨second, secondArrived, secondChecked⟩ := asked
  rw [state, entry] at firstChecked
  refine ⟨effect, member, backed, ?_, first, second, ⟨firstArrived, firstChecked⟩,
    ⟨secondArrived, secondChecked⟩, fun module action => ?_⟩
  · intro other present same
    exact remembers.sound.only present member (same.trans askedKey) storedKey
  · simp only [RequestState.key?, Option.map_eq_some_iff] at storedKey askedKey
    obtain ⟨scopeKey, storedScope, rfl⟩ := storedKey
    obtain ⟨askedScopeKey, askedScope, pairs⟩ := askedKey
    obtain rfl : askedScopeKey = scopeKey := congrArg Prod.fst pairs
    have firstKey := checkRequest_key firstChecked storedScope
    have secondKey := checkRequest_key secondChecked askedScope
    rw [module, action] at firstKey
    exact buildScopeKey_same firstKey secondKey

namespace Seed

def consumerManifest : ActionManifest :=
  { requestManifest with version := 2, isDefault := false, idempotencyScope := .consumerAction }

def consumerRequest : ActionRequest :=
  { paymentRequest "10.00" with
    explicitVersion := some 2, auth := ⟨"bob", "alice", ["payment:create"]⟩ }

def replayCall (index : Nat) : List ApiEvent :=
  [.handle index true, .statement index (.begin none), .statement index (.claim none),
    .statement index (.rollBack none), .statement index (.read none)]

def crossing (second : ActionRequest) : List ApiEvent :=
  .receive (paymentRequest "10.00") :: paymentCall 0 none ++ .receive second :: replayCall 1

def replayedFlight (second : ActionRequest) (entry : ActionManifest) : Flight where
  state := RequestState.build packages 1 second entry
  entry := entry
  phase := .answered (.replayed ⟨"created", some (.object []), "", 0⟩)

theorem crossing_effects :
    (Runs.run (Api.step packages registered) (Api.start [requestManifest, consumerManifest])
      (crossing consumerRequest)).shared.effects = [paymentEffect requestManifest] := by
  decide +kernel

theorem replayed_own :
    (Runs.run (Api.step packages registered) (Api.start [requestManifest, consumerManifest])
      (crossing (paymentRequest "10.00"))).party 1 =
        .invoking (replayedFlight (paymentRequest "10.00") requestManifest) := by
  decide +kernel

theorem replayed_crossing :
    (Runs.run (Api.step packages registered) (Api.start [requestManifest, consumerManifest])
      (crossing consumerRequest)).party 1 =
        .invoking (replayedFlight consumerRequest consumerManifest) := by
  decide +kernel

end Seed

theorem replay_isolated_own :
    ∃ effect ∈ (Runs.run (Api.step Seed.packages Seed.registered)
        (Api.start [Seed.requestManifest, Seed.consumerManifest])
        (Seed.crossing (Seed.paymentRequest "10.00"))).shared.effects,
      (Answer.replayed ⟨"created", some (.object []), "", 0⟩).Backed Seed.packages
        (Seed.replayedFlight (Seed.paymentRequest "10.00") Seed.requestManifest).state effect := by
  obtain ⟨effect, member, backed, _⟩ := replay_isolated Seed.packages Seed.registered
    [Seed.requestManifest, Seed.consumerManifest] (Seed.crossing (Seed.paymentRequest "10.00")) 1
    (Seed.replayedFlight (Seed.paymentRequest "10.00") Seed.requestManifest) _ Seed.replayed_own rfl
  exact ⟨effect, member, backed⟩

/-- Under the key `alice:payment.request` a consumer reads what a principal has stored. -/
theorem replay_crosses :
    ¬ ∀ (packages : Packages) (registered : String → String → Bool) (catalog : Catalog)
      (events : List ApiEvent) (index : Nat) (flight : Flight) (body : OkBody),
      (Runs.run (Api.step packages registered) (Api.start catalog) events).party index =
        .invoking flight →
      flight.phase = .answered (.replayed body) →
      ∃ effect ∈
        (Runs.run (Api.step packages registered) (Api.start catalog) events).shared.effects,
        (Answer.replayed body).Backed packages flight.state effect ∧
        ∀ first second, (arrivals events)[effect.request]? = some first →
          (arrivals events)[index]? = some second →
          first.module = second.module → first.action = second.action →
          SameCaller first second effect.entry flight.entry := by
  intro isolated
  obtain ⟨effect, member, _, same⟩ := isolated Seed.packages Seed.registered
    [Seed.requestManifest, Seed.consumerManifest] (Seed.crossing Seed.consumerRequest) 1 _ _
    Seed.replayed_crossing rfl
  rw [Seed.crossing_effects, List.mem_singleton] at member
  subst member
  exact absurd (same _ _ rfl rfl rfl rfl).1 (by decide)

end PaymentWorkflow
