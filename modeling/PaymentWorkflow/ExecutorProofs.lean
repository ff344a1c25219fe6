import PaymentWorkflow.ExecutorCore
import PaymentWorkflow.DurabilityProofs

/-! Which envelopes the API and the worker commit. -/

namespace PaymentWorkflow

/-- An envelope of the contract: an object with status ok, a declared outcome and a result that
is valid under the response schema. -/
def Conforms (packages : Packages) (requireFormat : Bool) (outcomes : List String)
    (schema value : Json) : Prop :=
  ∃ members outcome result, value = .object members ∧
    value.member? "status" = some (.text "ok") ∧
    value.member? "outcome" = some (.text outcome) ∧ outcomes.contains outcome = true ∧
    value.member? "result" = some result ∧
    packages.evaluate requireFormat schema result = .evaluated true

/-- An object that passes for an envelope though its status is a JSON null, or a string that is
neither ok nor error. -/
def Strays (packages : Packages) (requireFormat nullable : Bool) (outcomes : List String)
    (schema value : Json) : Prop :=
  ∃ members status outcome result, value = .object members ∧ value.depth ≤ 64 ∧
    value.member? "status" = some status ∧
    (status = .null ∨ ∃ content, status = .text content ∧ content ≠ "ok" ∧ content ≠ "error") ∧
    value.member? "outcome" = some (.text outcome) ∧ outcomes.contains outcome = true ∧
    value.member? "result" = some result ∧ (nullable = true ∨ result ≠ .null) ∧
    packages.evaluate requireFormat schema result = .evaluated true

structure Accepted (packages : Packages) (requireFormat nullable : Bool) (outcomes : List String)
    (schema value : Json) (outcome : String) (result : Json) : Prop where
  shallow : value.depth ≤ 64
  object : ∃ members, value = .object members
  status : value.member? "status" = none ∨ value.member? "status" = some .null ∨
    ∃ content, value.member? "status" = some (.text content) ∧ content ≠ "error"
  named : value.member? "outcome" = some (.text outcome)
  declared : outcomes.contains outcome = true
  present : value.member? "result" = some result
  nullable : nullable = true ∨ result ≠ .null
  valid : packages.evaluate requireFormat schema result = .evaluated true

open JsonElement

theorem tryGetString_ok {element : Json} {name : String} {content : Option String}
    (read : tryGetString element name = .ok content) :
    (∃ members, element = .object members) ∧
      match content with
      | some text => element.member? name = some (.text text)
      | none => element.member? name = none ∨ element.member? name = some .null := by
  obtain ⟨property, present, rest⟩ := Runs.bind_eq_ok.mp read
  unfold tryGetProperty at present
  split at present
  · rename_i members
    cases present
    refine ⟨⟨members, rfl⟩, ?_⟩
    split at rest
    · rename_i missing
      cases rest
      exact Or.inl missing
    · rename_i value found
      rw [found]
      unfold getString at rest
      split at rest
      · cases rest
        rfl
      · cases rest
        exact Or.inr rfl
      · cases rest
  · cases present

theorem tryGetString_of {members : List (String × Json)} {name : String} {content : Option String}
    (found : match content with
      | some text => (Json.object members).member? name = some (.text text)
      | none => (Json.object members).member? name = none ∨
          (Json.object members).member? name = some .null) :
    tryGetString (.object members) name = .ok content := by
  cases content with
  | some text => simp [tryGetString, tryGetProperty, found, bind, Except.bind, getString]
  | none =>
      rcases found with missing | null
      · simp [tryGetString, tryGetProperty, missing, bind, Except.bind]
      · simp [tryGetString, tryGetProperty, null, bind, Except.bind, getString]

theorem checkEnvelope_accepted {packages : Packages} {entry : ActionManifest} {reply : Json}
    {outcome : String} {result : Json} :
    checkEnvelope packages entry reply = .ok (.accepted outcome result) ↔
      Accepted packages true true entry.outcomes entry.responseSchema reply outcome result := by
  constructor
  · intro accepted
    unfold checkEnvelope at accepted
    split at accepted
    · cases accepted
    · rename_i root parsed
      obtain ⟨shallow, rfl⟩ : reply.depth ≤ 64 ∧ reply = root := by
        unfold parseDocument at parsed
        split at parsed
        · rename_i shallow
          cases parsed
          exact ⟨shallow, rfl⟩
        · cases parsed
      obtain ⟨status, readStatus, accepted⟩ := Runs.bind_eq_ok.mp accepted
      split at accepted
      · cases accepted
      · rename_i fine
        obtain ⟨named, readOutcome, accepted⟩ := Runs.bind_eq_ok.mp accepted
        cases named with
        | none => cases accepted
        | some other =>
            dsimp only at accepted
            split at accepted
            · cases accepted
            · rename_i declared
              obtain ⟨property, readResult, accepted⟩ := Runs.bind_eq_ok.mp accepted
              cases property with
              | none => cases accepted
              | some found =>
                  dsimp only at accepted
                  split at accepted
                  · cases accepted
                  · rename_i valid
                    cases accepted
                    obtain ⟨⟨members, rfl⟩, hasStatus⟩ := tryGetString_ok readStatus
                    have hasOutcome := (tryGetString_ok readOutcome).2
                    refine ⟨shallow, ⟨members, rfl⟩, ?_, hasOutcome, by simpa using declared, ?_,
                      Or.inl rfl, by simpa [Packages.isValid] using valid⟩
                    · cases status with
                      | none => exact hasStatus.imp_right Or.inl
                      | some content =>
                          exact Or.inr (Or.inr ⟨content, hasStatus, by simpa using fine⟩)
                    · simpa [tryGetProperty] using readResult
  · intro accepted
    obtain ⟨members, rfl⟩ := accepted.object
    have readOutcome : tryGetString (.object members) "outcome" = .ok (some outcome) :=
      tryGetString_of accepted.named
    have readResult : tryGetProperty (.object members) "result" = .ok (some result) :=
      congrArg Except.ok accepted.present
    have readStatus : ∃ status, tryGetString (.object members) "status" = .ok status ∧
        status ≠ some "error" := by
      rcases accepted.status with missing | null | ⟨content, found, fine⟩
      · exact ⟨none, tryGetString_of (Or.inl missing), by simp⟩
      · exact ⟨none, tryGetString_of (Or.inr null), by simp⟩
      · exact ⟨some content, tryGetString_of found, by simpa using fine⟩
    obtain ⟨status, readStatus, fine⟩ := readStatus
    have declared := accepted.declared
    have valid : packages.isValid entry.responseSchema result = true := by
      simp [Packages.isValid, accepted.valid]
    simp [checkEnvelope, parseDocument, accepted.shallow, readStatus, readOutcome, readResult, fine,
      bind, Except.bind, valid, by simpa using declared]

theorem jsonNode_text_ok {members : List (String × Json)} {name : String}
    {content : Option String} (read : JsonNode.text members name = .ok content) :
    match content with
    | some text => (Json.object members).member? name = some (.text text)
    | none => (Json.object members).member? name = none ∨
        (Json.object members).member? name = some .null := by
  unfold JsonNode.text at read
  split at read
  · rename_i missing
    cases read
    exact Or.inl missing
  · rename_i null
    cases read
    exact Or.inr null
  · rename_i found
    cases read
    exact found
  · cases read

theorem jsonNode_text_of {members : List (String × Json)} {name : String}
    {content : Option String}
    (found : match content with
      | some text => (Json.object members).member? name = some (.text text)
      | none => (Json.object members).member? name = none ∨
          (Json.object members).member? name = some .null) :
    JsonNode.text members name = .ok content := by
  cases content with
  | some text => simp [JsonNode.text, found]
  | none => rcases found with missing | null <;> simp [JsonNode.text, *]

theorem checkResult_accepted {packages : Packages} {schema : Json} {outcome other : String}
    {members : List (String × Json)} {result : Json} :
    checkResult packages schema outcome (JsonNode.member members "result") =
        .ok (.accepted other result) ↔
      schema ≠ .null ∧ outcome = other ∧ result ≠ .null ∧
        (Json.object members).member? "result" = some result ∧
        packages.evaluate false schema result = .evaluated true := by
  have nonNull : ∀ value : Json, JsonPointer.nonNull value = if value = .null then none else some value := by
    intro value
    cases value <;> simp [JsonPointer.nonNull]
  unfold checkResult JsonNode.member
  by_cases blank : schema = .null
  · simp [blank]
  · cases found : (Json.object members).member? "result" with
    | none =>
        simp only [blank, if_false, Option.bind_none, Option.getD_none]
        cases packages.evaluate false schema .null <;> simp
    | some value =>
        by_cases null : value = .null
        · simp only [blank, if_false, Option.bind_some, nonNull, null, if_true, Option.getD_none]
          cases packages.evaluate false schema .null <;> simp <;> intros <;> simp_all
        · simp only [blank, if_false, Option.bind_some, nonNull, null, Option.getD_some]
          cases verdict : packages.evaluate false schema value with
          | unloadable | thrown =>
              refine iff_of_false (by simp) ?_
              rintro ⟨_, _, _, same, valid⟩
              cases same
              simp [verdict] at valid
          | evaluated valid =>
              cases valid with
              | false =>
                  refine iff_of_false (by simp) ?_
                  rintro ⟨_, _, _, same, valid⟩
                  cases same
                  simp [verdict] at valid
              | true =>
                  simp only [Except.ok.injEq, JobVerdict.accepted.injEq]
                  constructor
                  · rintro ⟨rfl, rfl⟩
                    exact ⟨blank, rfl, null, rfl, verdict⟩
                  · rintro ⟨_, rfl, _, same, _⟩
                    exact ⟨rfl, Option.some.inj same⟩

theorem checkJobEnvelope_accepted {packages : Packages} {claimed : ClaimedJob} {reply : Json}
    {outcome : String} {result : Json} :
    checkJobEnvelope packages claimed reply = .ok (.accepted outcome result) ↔
      claimed.responseSchema ≠ .null ∧ Accepted packages false false claimed.outcomes
        claimed.responseSchema reply outcome result := by
  constructor
  · intro accepted
    unfold checkJobEnvelope at accepted
    split at accepted
    · cases accepted
    · rename_i members parsed
      obtain ⟨shallow, rfl⟩ : reply.depth ≤ 64 ∧ reply = .object members := by
        unfold parseDocument at parsed
        split at parsed
        · rename_i shallow
          cases parsed
          exact ⟨shallow, rfl⟩
        · cases parsed
      obtain ⟨status, readStatus, accepted⟩ := Runs.bind_eq_ok.mp accepted
      have hasStatus := jsonNode_text_ok readStatus
      split at accepted
      · obtain ⟨retryable, _, accepted⟩ := Runs.bind_eq_ok.mp accepted
        obtain ⟨code, _, accepted⟩ := Runs.bind_eq_ok.mp accepted
        cases accepted
      · rename_i fine
        obtain ⟨named, readOutcome, accepted⟩ := Runs.bind_eq_ok.mp accepted
        have hasOutcome := jsonNode_text_ok readOutcome
        cases named with
        | none => cases accepted
        | some other =>
            dsimp only at accepted
            split at accepted
            · cases accepted
            · rename_i declared
              obtain ⟨schema, rfl, null, present, valid⟩ := checkResult_accepted.mp accepted
              refine ⟨schema, shallow, ⟨members, rfl⟩, ?_, hasOutcome, by simpa using declared,
                present, Or.inr null, valid⟩
              cases status with
              | none => exact hasStatus.imp_right Or.inl
              | some content => exact Or.inr (Or.inr ⟨content, hasStatus, by simpa using fine⟩)
    · cases accepted
  · rintro ⟨schema, accepted⟩
    obtain ⟨members, rfl⟩ := accepted.object
    have readOutcome : JsonNode.text members "outcome" = .ok (some outcome) :=
      jsonNode_text_of accepted.named
    have readStatus : ∃ status, JsonNode.text members "status" = .ok status ∧
        status ≠ some "error" := by
      rcases accepted.status with missing | null | ⟨content, found, fine⟩
      · exact ⟨none, jsonNode_text_of (Or.inl missing), nofun⟩
      · exact ⟨none, jsonNode_text_of (Or.inr null), nofun⟩
      · exact ⟨some content, jsonNode_text_of found, by simpa using fine⟩
    obtain ⟨status, readStatus, fine⟩ := readStatus
    have checked : checkResult packages claimed.responseSchema outcome
        (JsonNode.member members "result") = .ok (.accepted outcome result) :=
      checkResult_accepted.mpr ⟨schema, rfl, accepted.nullable.resolve_left nofun,
        accepted.present, accepted.valid⟩
    simp [checkJobEnvelope, parseDocument, accepted.shallow, readStatus, readOutcome, fine, bind,
      Except.bind, by simpa using accepted.declared, checked]

def Flight.alone (packages : Packages) (place : ApiDb × Flight) (met : Bool × Input) :
    ApiDb × Flight :=
  place.2.step packages place.1 met.1 met.2

def ApiCommits (packages : Packages) (entry : ActionManifest) (value : Json) : Prop :=
  ∀ (db : ApiDb) (state : RequestState) (inputs : List (Bool × Input)) (effect : Effect),
    effect ∈ (Runs.run (Flight.alone packages) (db, { state, entry }) inputs).1.effects →
    effect ∉ db.effects → effect.value = some value →
    Conforms packages true entry.outcomes entry.responseSchema value ∧ ∃ outcome,
      state.dispatchRow .ok (some outcome) ∈
        (Runs.run (Flight.alone packages) (db, { state, entry }) inputs).1.dispatches

def JobCommits (packages : Packages) (entry : ActionManifest) (value : Json) : Prop :=
  ∀ (db : ApiDb) (claimed : ClaimedJob) (payload : String) (faults : JobFaults)
    (commit : JobCommit), claimed.outcomes = entry.outcomes →
    claimed.responseSchema = entry.responseSchema →
    processJob packages db claimed payload (.returned (some value)) faults = some commit →
    Conforms packages false entry.outcomes entry.responseSchema value ∧
      ∃ row, commit.dispatch = some row ∧ row.status = .ok ∧
        row.correlationId = claimed.executionId

section Executors

variable {packages : Packages} {entry : ActionManifest} {value : Json}

/-- An accepted value conforms, unless its status strays. -/
theorem Accepted.conforms {requireFormat nullable : Bool} {outcomes : List String}
    {schema result : Json} {outcome : String}
    (accepted : Accepted packages requireFormat nullable outcomes schema value outcome result)
    (status : hasStatus value = true)
    (calm : ¬ Strays packages requireFormat nullable outcomes schema value) :
    Conforms packages requireFormat outcomes schema value := by
  obtain ⟨members, rfl⟩ := accepted.object
  have strays : ∀ found, (Json.object members).member? "status" = some found →
      (found = .null ∨ ∃ content, found = .text content ∧ content ≠ "ok" ∧ content ≠ "error") →
      False := by
    intro found present odd
    exact calm ⟨members, found, outcome, result, rfl, accepted.shallow, present, odd,
      accepted.named, accepted.declared, accepted.present, accepted.nullable, accepted.valid⟩
  rcases accepted.status with missing | null | ⟨content, found, fine⟩
  · simp [hasStatus, missing] at status
  · exact (strays _ null (Or.inl rfl)).elim
  · by_cases ok : content = "ok"
    · subst ok
      exact ⟨members, outcome, result, rfl, found, accepted.named, accepted.declared,
        accepted.present, accepted.valid⟩
    · exact (strays _ found (Or.inr ⟨content, rfl, ok, fine⟩)).elim

theorem Accepted.not_errorReply {requireFormat nullable : Bool} {outcomes : List String}
    {schema result reply : Json} {outcome code message : String} {correlationId : Nat}
    {version : Option Int}
    (accepted : Accepted packages requireFormat nullable outcomes schema reply outcome result) :
    reply ≠ errorReply code message correlationId version := by
  rintro rfl
  rcases accepted.status with missing | null | ⟨content, found, fine⟩
  · simp [errorReply, Json.member?] at missing
  · simp [errorReply, Json.member?] at null
  · simp only [errorReply, Json.member?, List.find?_cons_of_pos, decide_true, Option.map_some,
      Option.some.injEq, Json.text.injEq] at found
    exact fine found.symm

theorem Strays.accepted {requireFormat nullable : Bool} {outcomes : List String} {schema : Json}
    (strays : Strays packages requireFormat nullable outcomes schema value) :
    (∃ outcome result, Accepted packages requireFormat nullable outcomes schema value outcome
      result) ∧ hasStatus value = true ∧ value.text? "status" ≠ some "ok" ∧
      ¬ Conforms packages requireFormat outcomes schema value := by
  obtain ⟨members, status, outcome, result, rfl, shallow, present, odd, named, declared, found,
    nullable, valid⟩ := strays
  refine ⟨⟨outcome, result, shallow, ⟨members, rfl⟩, ?_, named, declared, found, nullable, valid⟩,
    by simp [hasStatus, present], ?_, ?_⟩
  · rcases odd with rfl | ⟨content, rfl, _, fine⟩
    · exact Or.inr (Or.inl present)
    · exact Or.inr (Or.inr ⟨content, present, fine⟩)
  · rcases odd with rfl | ⟨content, rfl, other, _⟩
    · simp [Json.text?, present]
    · simpa [Json.text?, present] using other
  · rintro ⟨_, _, _, _, ok, _⟩
    rw [present] at ok
    rcases odd with rfl | ⟨content, rfl, other, _⟩
    · cases ok
    · cases ok
      exact other rfl

structure Flight.Adds (packages : Packages) (db : ApiDb) (state : RequestState)
    (entry : ActionManifest) (place : ApiDb × Flight) : Prop where
  sound : place.2.Sound packages
  sameState : place.2.state = state
  sameEntry : place.2.entry = entry
  effects : ∀ effect ∈ place.1.effects, effect ∈ db.effects ∨ ∃ reply outcome result,
    effect.value = some reply ∧ hasStatus reply = true ∧
    checkEnvelope packages entry reply = .ok (.accepted outcome result) ∧
    state.dispatchRow .ok (some outcome) ∈ place.1.dispatches

theorem Flight.Adds.step {db : ApiDb} {state : RequestState} {place : ApiDb × Flight}
    (adds : Flight.Adds packages db state entry place) (met : Bool × Input) :
    Flight.Adds packages db state entry (Flight.alone packages place met) := by
  have move := Flight.step_move packages place.1 place.2 met.1 met.2
  obtain ⟨sameState, sameEntry⟩ := move.state
  refine ⟨adds.sound.move move, sameState.trans adds.sameState, sameEntry.trans adds.sameEntry, ?_⟩
  intro effect member
  have grown := move.writes adds.sound
  unfold Flight.alone at member ⊢
  cases later : place.2.step packages place.1 met.1 met.2 with
  | mk db' after =>
      rw [later] at grown member
      cases grown with
      | nothing => exact adds.effects effect member
      | reported =>
          refine (adds.effects effect member).imp_right ?_
          rintro ⟨reply, outcome, result, value, status, accepted, logged⟩
          exact ⟨reply, outcome, result, value, status, accepted, List.mem_append_left _ logged⟩
      | @applied transaction added outcome result complete held closed ended =>
          simp only [List.mem_append, List.mem_singleton] at member
          rcases member with earlier | rfl
          · refine (adds.effects effect earlier).imp_right ?_
            rintro ⟨reply, outcome, result, value, status, accepted, logged⟩
            exact ⟨reply, outcome, result, value, status, accepted, List.mem_append_left _ logged⟩
          · obtain ⟨reply, acts⟩ := complete.acts
            refine Or.inr ⟨reply, outcome, result, acts.value, acts.status, ?_, ?_⟩
            · rw [← adds.sameEntry]
              exact acts.accepted
            · refine List.mem_append_right _ ?_
              rw [acts.state, adds.sameState]
              exact List.mem_singleton.mpr rfl

theorem apiCommits_of {db : ApiDb} {state : RequestState} (inputs : List (Bool × Input)) :
    Flight.Adds packages db state entry
      (Runs.run (Flight.alone packages) (db, { state, entry }) inputs) := by
  refine Runs.run_invariant (Flight.Adds packages db state entry)
    (fun place met adds => adds.step met) inputs _ ⟨Flight.Sound.of_closed rfl (by simp), rfl, rfl, ?_⟩
  intro effect member
  exact Or.inl member

theorem apiCommits (calm : ¬ Strays packages true true entry.outcomes entry.responseSchema value) :
    ApiCommits packages entry value := by
  intro db state inputs effect member fresh carried
  have adds := @apiCommits_of packages entry db state inputs
  obtain ⟨reply, outcome, result, same, status, accepted, logged⟩ :=
    (adds.effects effect member).resolve_left fresh
  cases carried.symm.trans same
  exact ⟨(checkEnvelope_accepted.mp accepted).conforms status calm, outcome, logged⟩

theorem recordedDispatch_ok {dispatches : List DispatchRow} {row : ActionManifest}
    {context : InvokeContext} {dispatch : Option DispatchRow}
    (asked : context.recordDispatch = true) (ok : value.text? "status" = some "ok")
    (recorded : recordedDispatch dispatches row context value = .ok dispatch) :
    ∃ record, dispatch = some record ∧ record.status = .ok ∧
      record.correlationId = context.correlationId := by
  unfold recordedDispatch at recorded
  simp only [asked, ok, not_true, ne_eq, if_false] at recorded
  split at recorded
  · cases recorded
  · split at recorded
    · cases recorded
    · cases recorded
      exact ⟨_, rfl, rfl, rfl⟩

theorem jobCommits (calm : entry.responseSchema ≠ .null →
      ¬ Strays packages false false entry.outcomes entry.responseSchema value) :
    JobCommits packages entry value := by
  intro db claimed payload faults commit outcomes schema committed
  unfold processJob at committed
  split at committed
  · cases committed
  · split at committed
    · cases committed
    · rename_i invocation called
      split at committed
      · rename_i outcome result checked
        obtain ⟨loads, accepted⟩ := checkJobEnvelope_accepted.mp checked
        obtain ⟨row, _, _, returned, recorded, status⟩ :=
          apiInvoke_returned called fun code message number => accepted.not_errorReply
        cases Option.some.inj returned
        rw [outcomes, schema] at accepted
        have conforms := accepted.conforms status (calm (by rw [← schema]; exact loads))
        refine ⟨conforms, ?_⟩
        have kept : commit.dispatch = invocation.dispatch := by
          split at committed
          · cases committed
          · split at committed
            · cases committed
              rfl
            · cases committed
            · split at committed
              · cases committed
                rfl
              · cases committed
        rw [kept]
        obtain ⟨members, _, _, _, ok, _⟩ := conforms
        exact recordedDispatch_ok rfl (by simp [Json.text?, ok]) recorded
      · cases committed

theorem apiInvoke_value {row : ActionManifest} {context : InvokeContext}
    {dispatch : Option DispatchRow} (enabled : row.enabled = true)
    (scopes : context.scopes = row.requiredPolicy) (status : hasStatus value = true)
    (recorded : recordedDispatch [] row context value = .ok dispatch) :
    apiInvoke { catalog := [row] } row.module row.action (some row.version) context
      (.returned (some value)) = .ok { reply := value, executed := some row, dispatch } := by
  have found : Catalog.invoked [row] row.module row.action (some row.version) = .ok row := by
    simp [Catalog.invoked, Catalog.find, ActionManifest.isVersion, ActionManifest.onRoute, enabled]
  have allowed : row.requiredPolicy.all context.scopes.contains = true := by
    simp [scopes]
  simp only [apiInvoke, found, allowed, status, not_true, if_false, recorded]
  rfl

def plainState (row : ActionManifest) : RequestState where
  module := row.module
  action := row.action
  correlationId := 0
  requestId := ""
  principal := ""
  scopes := row.requiredPolicy
  payloadHash := ""
  explicitVersion := some row.version
  version := row.version
  idempotencyScopeKey := none

def plainInputs (value : Json) : List (Bool × Input) :=
  [(false, .begin none), (false, .invoke (.returned (some value)) none), (false, .log none),
    (false, .commit none)]

/-- What the API accepts it commits, where no statement meets a fault. -/
theorem alone_commits {row : ActionManifest} {outcome : String} {result : Json}
    (enabled : row.enabled = true) (status : hasStatus value = true)
    (accepted : checkEnvelope packages entry value = .ok (.accepted outcome result)) :
    (Runs.run (Flight.alone packages) ({ catalog := [row] }, { state := plainState row, entry })
      (plainInputs value)).1.effects =
      [{ request := 0, state := plainState row, entry, executed := row, value := some value }] := by
  have called := @apiInvoke_value value row
    (({ state := plainState row, entry } : Flight).context) none enabled rfl status rfl
  let begun : Flight :=
    { state := plainState row, entry, phase := .claimed, session := .live {} }
  let effect : Effect :=
    { request := 0, state := plainState row, entry, executed := row, value := some value }
  let invoked : Flight :=
    { begun with phase := .accepted value outcome result, session := .live { effect } }
  have first : Flight.alone packages ({ catalog := [row] }, { state := plainState row, entry })
      (false, .begin none) = ({ catalog := [row] }, begun) := rfl
  have second : Flight.alone packages ({ catalog := [row] }, begun)
      (false, .invoke (.returned (some value)) none) = ({ catalog := [row] }, invoked) := by
    have judged : begun.judge packages value = .accepted value outcome result := by
      simp [Flight.judge, begun, accepted]
    have ran : begun.invoke packages { catalog := [row] } (.returned (some value)) none =
        invoked := by
      unfold Flight.invoke
      have healthy : begun.execute none = .ok {} := rfl
      rw [healthy]
      dsimp only
      rw [show apiInvoke { catalog := [row] } begun.state.module begun.state.action
        begun.state.explicitVersion begun.context (.returned (some value)) = _ from called]
      dsimp only
      rw [judged]
      rfl
    rw [← ran]
    rfl
  rw [plainInputs, Runs.run_cons, first, Runs.run_cons, second]
  rfl

theorem apiCommits_strays (strays : Strays packages true true entry.outcomes entry.responseSchema
    value) : ¬ ApiCommits packages entry value := by
  intro commits
  obtain ⟨⟨outcome, result, accepted⟩, status, _, wrong⟩ := strays.accepted
  have ran := @alone_commits packages entry value { entry with enabled := true } outcome result rfl
    status (checkEnvelope_accepted.mpr accepted)
  refine wrong (commits { catalog := [{ entry with enabled := true }] }
    (plainState { entry with enabled := true }) (plainInputs value) _
    (by rw [ran]; exact List.mem_singleton.mpr rfl) (by simp) rfl).1

def plainJob (row : ActionManifest) : ClaimedJob where
  jobId := 0
  processId := 0
  stepInstanceId := 0
  executionId := 0
  leaseVersion := 1
  attemptId := 0
  attemptNumber := 1
  owner := ""
  flowName := ""
  flowVersion := 1
  stepKey := ""
  stepType := .automatic
  processData := .object []
  task := {
    service := "postgres"
    module := row.module
    action := row.action
    actionVersion := row.version
    requiredPolicy := row.requiredPolicy
    timeoutMs := 1000
    retry := ⟨none, []⟩
    inputMapping := []
    inputConstants := [] }
  outcomes := row.outcomes
  requestSchema := .object []
  responseSchema := row.responseSchema

theorem jobCommits_strays (loads : entry.responseSchema ≠ .null)
    (strays : Strays packages false false entry.outcomes entry.responseSchema value) :
    ¬ JobCommits packages entry value := by
  intro commits
  obtain ⟨⟨outcome, result, accepted⟩, status, unrecorded, wrong⟩ := strays.accepted
  let row : ActionManifest := { entry with enabled := true }
  have silent : recordedDispatch [] row (jobContext packages (plainJob row) "") value =
      .ok none := by
    have named : uuidText 0 ≠ "" := by decide
    simp [recordedDispatch, jobContext, plainJob, named, unrecorded]
  have called := @apiInvoke_value value row (jobContext packages (plainJob row) "") none rfl rfl
    status silent
  have checked : checkJobEnvelope packages (plainJob row) value = .ok (.accepted outcome result) :=
    checkJobEnvelope_accepted.mpr ⟨loads, accepted⟩
  have ran : processJob packages { catalog := [row] } (plainJob row) "" (.returned (some value))
      {} = some ⟨some row, value, outcome, none⟩ := by
    unfold processJob
    rw [if_neg (by simp)]
    rw [show apiInvoke { catalog := [row] } (plainJob row).task.module (plainJob row).task.action
      (some (plainJob row).task.actionVersion) (jobContext packages (plainJob row) "")
      (.returned (some value)) = _ from called]
    dsimp only
    rw [checked]
    rfl
  exact wrong (commits { catalog := [row] } (plainJob row) "" {} _ rfl rfl ran).1

/-- The two executors agree with the contract on exactly the values that do not stray. -/
theorem executors_conform (packages : Packages) (entry : ActionManifest) (value : Json) :
    (ApiCommits packages entry value ∧ JobCommits packages entry value) ↔
      ¬ (Strays packages true true entry.outcomes entry.responseSchema value ∨
        entry.responseSchema ≠ .null ∧
          Strays packages false false entry.outcomes entry.responseSchema value) := by
  constructor
  · rintro ⟨api, job⟩ (strays | ⟨loads, strays⟩)
    · exact apiCommits_strays strays api
    · exact jobCommits_strays loads strays job
  · intro calm
    exact ⟨apiCommits fun strays => calm (Or.inl strays),
      jobCommits fun loads strays => calm (Or.inr ⟨loads, strays⟩)⟩

end Executors

def Seed.pendingEnvelope : Json :=
  .object [("status", .text "pending"), ("outcome", .text "created"), ("result", .object [])]

theorem executors_commit_pending :
    ¬ ∀ (packages : Packages) (entry : ActionManifest) (value : Json),
      ApiCommits packages entry value ∧ JobCommits packages entry value := by
  intro commits
  refine apiCommits_strays ⟨_, .text "pending", "created", .object [], rfl, by decide, rfl,
    Or.inr ⟨"pending", rfl, by decide, by decide⟩, rfl, by decide, rfl, Or.inl rfl, rfl⟩
    (commits Seed.packages Seed.requestManifest Seed.pendingEnvelope).1

end PaymentWorkflow
