import PaymentWorkflow.DurabilityProofs

/-! One committed execution for each idempotency key, over every run of the API. -/

namespace PaymentWorkflow

theorem filter_length_le_one {Item Key : Type} [DecidableEq Key] (key : Item → Option Key)
    (wanted : Key) : ∀ items : List Item, (items.filterMap key).Nodup →
      (items.filter fun item => key item = some wanted).length ≤ 1 := by
  intro items
  induction items with
  | nil => intro _; simp
  | cons item rest ih =>
      intro unique
      cases keyed : key item with
      | none =>
          rw [List.filterMap_cons_none keyed] at unique
          simpa [keyed] using ih unique
      | some found =>
          rw [List.filterMap_cons_some keyed, List.nodup_cons] at unique
          by_cases same : found = wanted
          · subst same
            have missing : rest.filter (fun other => key other = some found) = [] := by
              rw [List.filter_eq_nil_iff]
              intro other member hit
              exact unique.1 (List.mem_filterMap.mpr ⟨other, member, by simpa using hit⟩)
            simp [keyed, missing]
          · simpa [keyed, same] using ih unique.2

theorem Api.Sound.keyed {packages : Packages} {api : Api} (sound : api.Sound packages) :
    (api.shared.effects.filterMap fun effect => effect.state.key?).Nodup := by
  have unique := sound.unique
  rw [ApiDb.keys, sound.stored, List.map_filterMap] at unique
  refine (congrArg List.Nodup ?_).mp unique
  refine congrFun (congrArg List.filterMap (funext fun effect => ?_)) _
  simp only [Effect.row?, RequestState.key?, Option.map_map]
  rfl

theorem Api.Sound.only {packages : Packages} {api : Api} (sound : api.Sound packages)
    {left right : Effect} {key : String × String} (first : left ∈ api.shared.effects)
    (second : right ∈ api.shared.effects) (leftKey : left.state.key? = some key)
    (rightKey : right.state.key? = some key) : left = right := by
  have few := filter_length_le_one (fun effect : Effect => effect.state.key?) key _ sound.keyed
  have leftIn : left ∈ api.shared.effects.filter fun effect => effect.state.key? = some key :=
    List.mem_filter.mpr ⟨first, decide_eq_true leftKey⟩
  have rightIn : right ∈ api.shared.effects.filter fun effect => effect.state.key? = some key :=
    List.mem_filter.mpr ⟨second, decide_eq_true rightKey⟩
  match found : api.shared.effects.filter fun effect => effect.state.key? = some key with
  | [] =>
      rw [found] at leftIn
      cases leftIn
  | [only] =>
      rw [found, List.mem_singleton] at leftIn rightIn
      rw [leftIn, rightIn]
  | _ :: _ :: _ =>
      rw [found] at few
      simp at few

/-- What an idempotency key stands for, whatever fails and however the requests interleave. -/
structure Api.Idempotent (packages : Packages) (api : Api) : Prop where
  once : ∀ key,
    (api.shared.effects.filter fun effect => effect.state.key? = some key).length ≤ 1
  rows : api.shared.idempotency = api.shared.effects.filterMap Effect.row?
  replays : ∀ index flight body, api.party index = .invoking flight →
    flight.phase = .answered (.replayed body) → ∃ effect ∈ api.shared.effects,
      (Answer.replayed body).Backed packages flight.state effect

/-- An ok answer under a key with a committed execution has that execution's payload. -/
theorem Api.Sound.agrees {packages : Packages} {api : Api} (sound : api.Sound packages)
    {state : RequestState} {answer : Answer} {own committed : Effect} {key : String × String}
    (member : own ∈ api.shared.effects) (backed : answer.Backed packages state own)
    (present : committed ∈ api.shared.effects) (keyed : committed.state.key? = some key)
    (same : state.key? = some key) : committed.state.payloadHash = state.payloadHash := by
  cases answer with
  | ok body =>
      have equal := sound.only member present ((congrArg RequestState.key? backed.1).trans same) keyed
      rw [← equal, backed.1]
  | replayed body =>
      obtain ⟨⟨shared, ownKey, asked⟩, hash, _⟩ := backed
      have equal := sound.only member present (ownKey.trans (asked.symm.trans same)) keyed
      rw [← equal]
      exact hash
  | error | unhandled => exact backed.elim

theorem idempotent_keys (packages : Packages) (registered : String → String → Bool)
    (catalog : Catalog) (events : List ApiEvent) :
    Api.Idempotent packages (Runs.run (Api.step packages registered) (Api.start catalog) events) ∧
    ∀ index flight answer committed key,
      (Runs.run (Api.step packages registered) (Api.start catalog) events).party index =
        .invoking flight →
      flight.phase = .answered answer → ¬ answer.Fails →
      Runs.Guarded (Api.step packages registered)
        (fun api event => api.refuses index event = false) (Api.start catalog) events →
      committed ∈ (Runs.run (Api.step packages registered) (Api.start catalog)
        events).shared.effects →
      committed.state.key? = some key → flight.state.key? = some key →
      committed.state.payloadHash = flight.state.payloadHash := by
  have sound := Api.reached_sound packages registered catalog events
  refine ⟨⟨?_, sound.stored, ?_⟩, ?_⟩
  · intro key
    exact filter_length_le_one (fun effect : Effect => effect.state.key?) key _ sound.keyed
  · intro index flight body phase answered
    have tracks := (Api.reached_tracked packages registered catalog events index).2
    rw [phase] at tracks
    simp only [Slot.Tracks, Flight.Tracks, answered] at tracks
    exact tracks.2
  · intro index flight answer committed key phase answered success taken present keyed same
    obtain ⟨own, member, backed⟩ := (Api.reached_backed phase answered success).mpr taken
    exact sound.agrees member backed present keyed same

end PaymentWorkflow
