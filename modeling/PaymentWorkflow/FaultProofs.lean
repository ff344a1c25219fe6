import PaymentWorkflow.EngineCalls
import PaymentWorkflow.PublishProofs

/-!
What the recursion through `_enter_step` may raise: it never exceeds its bound, and on a
version whose map was accepted it never leaves the map.
-/

namespace PaymentWorkflow

/-! The map of a version, as the engine reads it back. -/

def Config.OnMap (config : Config) (flowName : String) (flowVersion : Int) (key : String) : Prop :=
  ∃ version ∈ config.flowVersions, version.flowName = flowName ∧ version.version = flowVersion ∧
    key ∈ version.map.stepKeys

def Config.Offers (config : Config) (flowName : String) (flowVersion : Int)
    (key outcome : String) : Prop :=
  ∃ version ∈ config.flowVersions, version.flowName = flowName ∧ version.version = flowVersion ∧
    outcome ∈ version.map.outgoing key

namespace Config.Faithful

variable {config : Config} {flowName key outcome : String} {flowVersion : Int}

theorem leads (faithful : config.Faithful) (offers : config.Offers flowName flowVersion key outcome) :
    ∃ transition, config.transition? flowName flowVersion (some key) (some outcome) =
      some transition ∧ config.OnMap flowName flowVersion transition.toStepKey := by
  obtain ⟨version, member, rfl, rfl, listed⟩ := offers
  obtain ⟨catalog, accepted, _⟩ := faithful.accepted version member
  obtain ⟨target, leads⟩ := Option.isSome_iff_exists.mp (FlowMap.mem_outgoing.mp listed)
  have read := faithful.transition? member key outcome
  rw [leads] at read
  obtain ⟨transition, found, rfl⟩ := Option.map_eq_some_iff.mp read
  exact ⟨transition, found, version, member, rfl, rfl, accepted.target leads⟩

theorem defines (faithful : config.Faithful) (inside : config.OnMap flowName flowVersion key) :
    ∃ definition, config.stepDefinition? flowName flowVersion key = some definition := by
  obtain ⟨version, member, rfl, rfl, listed⟩ := inside
  obtain ⟨catalog, accepted, _⟩ := faithful.accepted version member
  obtain ⟨step, stepMember, rfl⟩ := List.mem_map.mp listed
  obtain ⟨stepType, kind⟩ := accepted.kind stepMember
  rw [faithful.stepDefinition? member, accepted.step stepMember]
  simp [FlowMap.define, kind.ofText?]

theorem waits (faithful : config.Faithful) {definition : StepDefinition}
    (found : config.stepDefinition? flowName flowVersion key = some definition)
    (type : definition.stepType = .waitSignal) :
    ∃ outcome, definition.params.outcome = some outcome ∧
      config.Offers flowName flowVersion key outcome := by
  obtain ⟨version, member, named, numbered, step, inside, rfl, kind, same⟩ :=
    faithful.defined found
  obtain ⟨catalog, accepted, _⟩ := faithful.accepted version member
  rw [type] at kind
  cases kind with
  | waitSignal signalType outcome type awaits has =>
      refine ⟨outcome, by rw [same]; exact has, version, member, named, numbered, ?_⟩
      exact (accepted.waits inside type has outcome).mpr rfl

theorem decides (faithful : config.Faithful) {definition : StepDefinition}
    (found : config.stepDefinition? flowName flowVersion key = some definition)
    (type : definition.stepType = .manual) {outcomes : List String}
    (allowed : definition.params.allowedOutcomes = some outcomes) (member : outcome ∈ outcomes) :
    config.Offers flowName flowVersion key outcome := by
  obtain ⟨version, versionMember, named, numbered, step, inside, rfl, kind, same⟩ :=
    faithful.defined found
  obtain ⟨catalog, accepted, _⟩ := faithful.accepted version versionMember
  rw [type] at kind
  cases kind with
  | manual listed type has =>
      have equal : listed = outcomes := by
        rw [same] at allowed
        exact Option.some.inj (has.symm.trans allowed)
      exact ⟨version, versionMember, named, numbered,
        (accepted.decides inside type has outcome).mpr (equal ▸ member)⟩

theorem checked (faithful : config.Faithful) {task : TaskDefinition} {action : ActionRow}
    (found : config.task? flowName flowVersion key = some task)
    (catalogued : config.action? task.task.module task.task.action task.task.actionVersion =
      some action) :
    ∃ version ∈ config.flowVersions, version.flowName = flowName ∧ version.version = flowVersion ∧
      (∃ step ∈ version.map.steps, step.key = key ∧ step.type = "automatic" ∧
        step.task = some task.task) ∧
      (∀ outcome, outcome ∈ version.map.outgoing key ↔ outcome ∈ action.outcomes) ∧
      ∀ policy, policy ∈ task.task.requiredPolicy ↔ policy ∈ action.requiredPolicy := by
  have matched := List.find?_some found
  simp only [decide_eq_true_eq] at matched
  have taskMember := List.mem_of_find?_eq_some found
  obtain ⟨version, versionMember, owns⟩ := faithful.tasks.owned task taskMember
  have listed : task ∈ version.map.steps.filterMap version.map.defineTask := by
    rw [← faithful.tasks.rows version versionMember]
    exact List.mem_filter.mpr ⟨taskMember, by simp [owns]⟩
  obtain ⟨step, inside, projected⟩ := List.mem_filterMap.mp listed
  obtain ⟨catalog, accepted, kept⟩ := faithful.accepted version versionMember
  obtain ⟨stepType, kind⟩ := accepted.kind inside
  simp only [FlowMap.defineTask, kind.ofText?] at projected
  split at projected
  · rename_i automatic
    cases kind with
    | automatic own type has =>
        simp only [has, Option.map_some, Option.some.injEq] at projected
        subst projected
        obtain ⟨manifest, published, outcomes, policies, _⟩ := accepted.task inside type has
        have keyed := List.find?_some published
        simp only [decide_eq_true_eq] at keyed
        obtain ⟨after, afterMember, same⟩ := kept.rows manifest (List.mem_of_find?_eq_some published)
        simp only [ActionRow.manifest, ActionRow.mk.injEq] at same
        have actionKey := List.find?_some catalogued
        simp only [decide_eq_true_eq] at actionKey
        have equal : action = after := by
          refine Table.key_unique faithful.unique (List.mem_of_find?_eq_some catalogued) afterMember ?_
          simp only [ActionRow.key, Prod.mk.injEq]
          exact ⟨actionKey.1.trans (keyed.1.symm.trans same.1.symm),
            actionKey.2.1.trans (keyed.2.1.symm.trans same.2.1.symm),
            actionKey.2.2.trans (keyed.2.2.1.symm.trans same.2.2.1.symm)⟩
        obtain ⟨_, _, _, _, _, _, _, outcome, policy, _⟩ := same
        simp only [FlowVersion.key, Prod.mk.injEq] at owns
        refine ⟨version, versionMember, owns.1.trans matched.1, owns.2.trans matched.2.1,
          ⟨step, inside, matched.2.2, type, has⟩, ?_, ?_⟩
        · rw [← matched.2.2, equal, outcome]
          exact outcomes
        · rw [equal, policy]
          exact policies
    | waitSignal | manual | endStep => simp at automatic
  · simp at projected

theorem performs (faithful : config.Faithful) {task : TaskDefinition} {action : ActionRow}
    (found : config.task? flowName flowVersion key = some task)
    (catalogued : config.action? task.task.module task.task.action task.task.actionVersion =
      some action) (member : outcome ∈ action.outcomes) :
    config.Offers flowName flowVersion key outcome := by
  obtain ⟨version, inside, named, numbered, _, outcomes, _⟩ := faithful.checked found catalogued
  exact ⟨version, inside, named, numbered, (outcomes outcome).mpr member⟩

end Config.Faithful

/-! The measure the recursion spends: every nested call consumes a stored signal, and a signal
is only stored on the way for a message that had none. -/

namespace Db

variable {db : Db}

def unapplied (db : Db) : List Signal := db.workflow.signals.filter fun row => row.status = .accepted

def unsignalled (db : Db) : List InboxRow :=
  db.delivery.inbox.filter fun row =>
    row.state = .received ∧ (db.workflow.signal? row.messageId).isNone

def unspent (db : Db) : Nat := db.unapplied.length + db.unsignalled.length

theorem unspent_lt_recursionBound (db : Db) : db.unspent < recursionBound db := by
  have signals : db.unapplied.length ≤ db.workflow.signals.length := List.length_filter_le _ _
  have messages : db.unsignalled.length ≤ db.delivery.inbox.length := List.length_filter_le _ _
  simp only [unspent, recursionBound]
  omega

theorem unspent_placeStep (processId : Nat) (definition : StepDefinition) :
    (db.placeStep processId definition).unspent = db.unspent := by
  simp [unspent, unapplied, unsignalled, Workflow.signal?]

theorem unapplied_consumeSignal {processId stepInstanceId : Nat} {outcome : Option String}
    {signal : Signal} (member : signal ∈ db.workflow.signals) (status : signal.status = .accepted) :
    (db.consumeSignal processId stepInstanceId outcome signal).unapplied.length <
      db.unapplied.length := by
  have signals : (db.consumeSignal processId stepInstanceId outcome signal).unapplied =
      db.unapplied.filter fun row => !decide (row.messageId = signal.messageId) :=
    Table.filter_update_leave _ _ _ (fun _ => rfl) _
  rw [signals, List.length_filter_lt_length_iff_exists]
  exact ⟨signal, List.mem_filter.mpr ⟨member, by simp [status]⟩, by simp⟩

theorem unspent_consumeSignal {processId stepInstanceId : Nat} {outcome : Option String}
    {signal : Signal} (member : signal ∈ db.workflow.signals) (status : signal.status = .accepted) :
    (db.consumeSignal processId stepInstanceId outcome signal).unspent < db.unspent := by
  have fewer := @unapplied_consumeSignal db processId stepInstanceId outcome signal member status
  have stays : ∀ id, ((db.consumeSignal processId stepInstanceId outcome signal).workflow.signal?
      id).isNone = (db.workflow.signal? id).isNone := by
    intro id
    show (Table.lookup _ _ (Table.update _ _ _)).isNone = _
    rw [Table.lookup_update, Option.isNone_map]
    · rfl
    · exact fun _ => rfl
  have messages : (db.consumeSignal processId stepInstanceId outcome signal).unsignalled =
      db.unsignalled := by
    simp only [unsignalled, stays]
    rfl
  rw [unspent, unspent, messages]
  omega

theorem unsignalled_insertSignal {messageId : String} {processId : Nat}
    {signalType bodyHash : String} :
    (db.insertSignal messageId processId signalType bodyHash).unsignalled =
      db.unsignalled.filter fun row => row.messageId ≠ messageId := by
  simp only [unsignalled, List.filter_filter]
  congr 1
  funext row
  rw [Bool.eq_iff_iff]
  simp only [Workflow.signal?, insertSignal, Table.lookup_append, decide_eq_true_eq,
    Bool.and_eq_true]
  by_cases same : row.messageId = messageId
  · simp [same, Table.lookup]
  · simp [same, Table.lookup, Ne.symm same]

theorem unspent_insertSignal {messageId : String} {processId : Nat} {signalType bodyHash : String} :
    (db.insertSignal messageId processId signalType bodyHash).unspent ≤ db.unspent + 1 := by
  have signals : (db.insertSignal messageId processId signalType bodyHash).unapplied.length =
      db.unapplied.length + 1 := by
    simp [unapplied]
  have messages : (db.insertSignal messageId processId signalType bodyHash).unsignalled.length ≤
      db.unsignalled.length := by
    rw [unsignalled_insertSignal]
    exact List.length_filter_le _ _
  rw [unspent, unspent, signals]
  omega

theorem unspent_insertSignal_message {message : InboxRow} {processId : Nat}
    {signalType bodyHash : String} (member : message ∈ db.delivery.inbox)
    (received : message.state = .received)
    (fresh : db.workflow.signal? message.messageId = none) :
    (db.insertSignal message.messageId processId signalType bodyHash).unspent ≤ db.unspent := by
  have signals : (db.insertSignal message.messageId processId signalType bodyHash).unapplied.length =
      db.unapplied.length + 1 := by
    simp [unapplied]
  have messages : (db.insertSignal message.messageId processId signalType
      bodyHash).unsignalled.length < db.unsignalled.length := by
    rw [unsignalled_insertSignal, List.length_filter_lt_length_iff_exists]
    exact ⟨message, List.mem_filter.mpr ⟨member, by simp [received, fresh]⟩, by simp⟩
  rw [unspent, unspent, signals]
  omega

theorem unspent_markApplied (messageId : String) : (db.markApplied messageId).unspent ≤ db.unspent := by
  have messages : (db.markApplied messageId).unsignalled =
      db.unsignalled.filter fun row => !decide (row.messageId = messageId) :=
    Table.filter_update_leave _ _ _ (fun _ => by simp) _
  have fewer : (db.markApplied messageId).unsignalled.length ≤ db.unsignalled.length := by
    rw [messages]
    exact List.length_filter_le _ _
  exact Nat.add_le_add_left fewer _

end Db

/-! Results that stay within what a call may raise. -/

/-- The errors that mean the recursion bound was hit or, on an accepted map, left. -/
def SqlError.strays (mapped : Bool) : SqlError → Bool
  | .recursionLimit => true
  | .unknownStep _ | .unknownOutcome _ _ => mapped
  | _ => false

def Within (mapped : Bool) {Value : Type} (result : Except SqlError Value)
    (kept : Value → Prop) : Prop :=
  match result with
  | .ok value => kept value
  | .error failure => failure.strays mapped = false

namespace Within

variable {mapped : Bool} {Value Result : Type}

theorem bind {first : Except SqlError Value} {next : Value → Except SqlError Result}
    {before : Value → Prop} {kept : Result → Prop} (start : Within mapped first before)
    (rest : ∀ value, first = .ok value → before value → Within mapped (next value) kept) :
    Within mapped (first >>= next) kept := by
  cases first with
  | ok value => exact rest value rfl start
  | error failure => exact start

theorem mono {result : Except SqlError Value} {before kept : Value → Prop}
    (within : Within mapped result before) (weaker : ∀ value, before value → kept value) :
    Within mapped result kept := by
  cases result with
  | ok value => exact weaker value within
  | error failure => exact within

end Within

section Recursion

variable {mapped : Bool} {depth : Nat} {enter : EnterStep} {db : Db}

def EntersWithin (mapped : Bool) (depth : Nat) (enter : EnterStep) : Prop :=
  ∀ (db : Db) (process : Process) (stepKey : String), db.Rows →
    db.workflow.process? process.id = some process →
    (∀ definition, db.config.stepDefinition? process.flowName process.flowVersion stepKey =
      some definition → (db.placeStep process.id definition).Sound) →
    (mapped = true → db.config.Faithful ∧
      db.config.OnMap process.flowName process.flowVersion stepKey) →
    db.unspent < depth →
      Within mapped (enter db process.id stepKey) fun later => later.unspent ≤ db.unspent

theorem advance_within (enters : EntersWithin mapped depth enter) (rows : db.Rows)
    {process : Process} {outcome : Option String}
    (found : db.workflow.process? process.id = some process)
    (placed : ∀ transition next, db.config.transition? process.flowName process.flowVersion
      process.currentStepKey outcome = some transition →
        db.config.stepDefinition? process.flowName process.flowVersion transition.toStepKey =
          some next → (db.placeStep process.id next).Sound)
    (offers : mapped = true → db.config.Faithful ∧ ∃ key known, process.currentStepKey = some key ∧
      outcome = some known ∧ db.config.Offers process.flowName process.flowVersion key known)
    (bound : db.unspent < depth) :
    Within mapped (advance enter db process.id outcome) fun later =>
      later.unspent ≤ db.unspent := by
  simp only [advance, found]
  split
  · exact Nat.le_refl _
  split
  · rename_i missing
    cases mapped with
    | false => rfl
    | true =>
        obtain ⟨faithful, key, known, current, same, listed⟩ := offers rfl
        obtain ⟨transition, leads, _⟩ := faithful.leads listed
        rw [current, same, leads] at missing
        simp at missing
  · rename_i transition leads
    refine enters db process _ rows found (fun next defined => placed transition next leads defined)
      ?_ bound
    intro strict
    obtain ⟨faithful, key, known, current, same, listed⟩ := offers strict
    obtain ⟨other, otherLeads, inside⟩ := faithful.leads listed
    rw [current, same, otherLeads] at leads
    exact ⟨faithful, Option.some.inj leads ▸ inside⟩

theorem applyReadySignals_within (enters : EntersWithin mapped depth enter) (sound : db.Sound)
    (faithful : mapped = true → db.config.Faithful) {process : Process} {step : StepInstance}
    {definition : StepDefinition} (owner : process ∈ db.workflow.processes)
    (member : step ∈ db.workflow.steps) (owns : step.processId = process.id)
    (waits : step.stepType = .waitSignal) (waiting : step.state = .waiting)
    (defined : db.config.stepDefinition? process.flowName process.flowVersion step.stepKey =
      some definition) (bound : db.unspent ≤ depth) :
    Within mapped (applyReadySignals enter db process.id step.id definition.params) fun later =>
      later.unspent ≤ db.unspent := by
  obtain ⟨current, _⟩ := (sound.settled process.id).of_waiting
    (sound.rows.process? owner) (Db.mem_view_steps.mpr ⟨member, owns⟩) waiting (by rw [waits]; simp)
  simp only [applyReadySignals]
  split
  · exact Nat.le_refl _
  · rename_i signal ready
    obtain ⟨signalMember, _, _, status⟩ := Db.readySignal?_mem ready
    have fewer := @Db.unspent_consumeSignal db process.id step.id definition.params.outcome signal
      signalMember status
    have advanced := @advance_within mapped depth enter
      (db.consumeSignal process.id step.id definition.params.outcome signal) enters
      (Db.consumeSignal_rows sound.rows _ _ _ _) process definition.params.outcome
      (sound.rows.process? owner)
      (fun transition next leads placed => (EngineMove.signalled owner member owns waits waiting
        defined ready leads placed).sound sound)
      (fun strict => by
        have typed : definition.stepType = .waitSignal := by
          obtain ⟨same, found, type⟩ := sound.rows.definition member owner owns.symm
          rw [defined] at found
          rw [Option.some.inj found, type, waits]
        obtain ⟨outcome, has, listed⟩ := (faithful strict).waits defined typed
        exact ⟨faithful strict, step.stepKey, outcome, current, has, listed⟩)
      (by omega)
    exact advanced.mono fun later fewerLater => by omega

theorem acceptSignalBody_within (enters : EntersWithin mapped depth enter) (sound : db.Sound)
    (faithful : mapped = true → db.config.Faithful) {processId bound : Nat}
    {signalType messageId : String} {payload : Json} (within : bound ≤ depth)
    (before : db.unspent ≤ bound)
    (stored : db.workflow.signal? messageId = none →
      (db.insertSignal messageId processId signalType (db.digest payload.render)).unspent ≤ bound) :
    Within mapped (acceptSignalBody enter db processId signalType messageId payload) fun accepted =>
      accepted.1.unspent ≤ bound := by
  simp only [acceptSignalBody]
  split
  · rfl
  split
  · rfl
  split
  · rfl
  rename_i process found
  obtain ⟨owner, rfl⟩ := Table.lookup_mem found
  split
  · rfl
  rename_i declared
  split
  · split
    · exact before
    · rfl
  rename_i fresh
  split
  · rfl
  rename_i unused
  have storedSound := (@EngineMove.stored db _ _ _ (db.digest payload.render) owner
    (by simpa using declared) fresh (by simpa using unused)).sound sound
  have storedBound := stored fresh
  split
  · exact storedBound
  rename_i step stepFound
  obtain ⟨stepMember, owns, waits, waiting⟩ : step ∈ db.workflow.steps ∧
      step.processId = process.id ∧ step.stepType = .waitSignal ∧ step.state = .waiting := by
    simpa using Table.first_mem stepFound
  split
  · exact storedBound
  rename_i definition defined
  split
  · refine Within.bind (applyReadySignals_within enters storedSound faithful owner stepMember owns
      waits waiting defined (Nat.le_trans storedBound within)) ?_
    intro applied _ fewer
    exact Nat.le_trans fewer storedBound
  · exact storedBound

theorem acceptSignal_within (enters : EntersWithin mapped depth enter) (sound : db.Sound)
    (faithful : mapped = true → db.config.Faithful) {processId bound : Nat}
    {signalType messageId : String} {payload : Json} (within : bound ≤ depth)
    (before : db.unspent ≤ bound)
    (stored : db.workflow.signal? messageId = none →
      (db.insertSignal messageId processId signalType (db.digest payload.render)).unspent ≤ bound) :
    Within mapped (acceptSignal enter db processId signalType messageId payload) fun accepted =>
      accepted.1.unspent ≤ bound := by
  simp only [acceptSignal]
  split
  · split
    · split
      · exact before
      · rfl
    · split
      · exact before
      · rfl
  · exact acceptSignalBody_within enters sound faithful within before stored

theorem applyInboxForProcess_within (enters : EntersWithin mapped depth enter) (sound : db.Sound)
    (faithful : mapped = true → db.config.Faithful) {processId : Nat} {signalType : Option String}
    (bound : db.unspent ≤ depth) :
    Within mapped (applyInboxForProcess enter db processId signalType) fun later =>
      later.unspent ≤ db.unspent := by
  simp only [applyInboxForProcess]
  split
  · exact Nat.le_refl _
  rename_i message received
  have chosen := Table.first_mem received
  simp only [List.mem_filter, decide_eq_true_eq] at chosen
  refine Within.bind (acceptSignal_within enters sound faithful bound (Nat.le_refl _)
    (fun fresh => Db.unspent_insertSignal_message chosen.1 chosen.2.2.2 fresh)) ?_
  intro accepted _ fewer
  exact Nat.le_trans (Db.unspent_markApplied _) fewer

theorem enterWaiting_within (enters : Enters enter) (inner : EntersWithin mapped depth enter)
    (sound : db.Sound) (faithful : mapped = true → db.config.Faithful) {process : Process}
    {step : StepInstance} {definition : StepDefinition} (owner : process ∈ db.workflow.processes)
    (member : step ∈ db.workflow.steps) (owns : step.processId = process.id)
    (waits : step.stepType = .waitSignal) (waiting : step.state = .waiting)
    (defined : db.config.stepDefinition? process.flowName process.flowVersion step.stepKey =
      some definition) (bound : db.unspent ≤ depth) :
    Within mapped (do
      let ready ← applyReadySignals enter db process.id step.id definition.params
      applyInboxForProcess enter ready process.id definition.params.signalType) fun later =>
        later.unspent ≤ db.unspent := by
  refine Within.bind (applyReadySignals_within inner sound faithful owner member owns waits waiting
    defined bound) ?_
  intro ready returned fewer
  have reaches := applyReadySignals_reaches enters sound owner member owns waits waiting defined
    returned
  have readyFaithful : mapped = true → ready.config.Faithful := by
    rw [reaches.moves.config_eq]
    exact faithful
  exact (applyInboxForProcess_within inner (reaches.sound sound) readyFaithful
    (Nat.le_trans fewer bound)).mono fun later fewerLater => Nat.le_trans fewerLater fewer

theorem enterStepBody_within (enters : Enters enter) (inner : EntersWithin mapped depth enter) :
    EntersWithin mapped (depth + 1) (enterStepBody enter) := by
  intro db process stepKey rows found sound inside bound
  simp only [enterStepBody, found]
  split
  · rename_i undefined
    cases mapped with
    | false => rfl
    | true =>
        obtain ⟨definition, defined⟩ := (inside rfl).1.defines (inside rfl).2
        rw [defined] at undefined
        simp at undefined
  rename_i definition defined
  have same := @Db.unspent_placeStep db process.id definition
  split
  · rename_i waits
    have placedOwner : Db.placedProcess definition process ∈
        (db.placeStep process.id definition).workflow.processes := by
      rw [Db.placeStep_processes, Table.mem_update]
      exact ⟨process, (Table.lookup_mem found).1, by simp⟩
    have placedMember : db.placedStep process.id definition ∈
        (db.placeStep process.id definition).workflow.steps := by
      rw [Db.placeStep_steps _ _ _ rows.stepBound]
      simp
    have waiting : (db.placedStep process.id definition).state = .waiting := by
      simp [Db.placedStep, waits, StepType.entryState]
    have placedDefined : (db.placeStep process.id definition).config.stepDefinition?
        (Db.placedProcess definition process).flowName
        (Db.placedProcess definition process).flowVersion
        (db.placedStep process.id definition).stepKey = some definition := by
      rw [Db.placeStep_config]
      show db.config.stepDefinition? _ _ definition.stepKey = _
      rw [(stepDefinition?_key defined).2.2]
      exact defined
    have entered := @enterWaiting_within mapped depth enter (db.placeStep process.id definition)
      enters inner (sound definition defined)
      (by rw [Db.placeStep_config]; exact fun strict => (inside strict).1)
      (Db.placedProcess definition process) (db.placedStep process.id definition) definition
      placedOwner placedMember rfl waits waiting placedDefined (by omega)
    rw [same] at entered
    exact entered
  · exact Nat.le_of_eq same

theorem enterStep_within : ∀ depth, EntersWithin mapped depth (enterStep depth) := by
  intro depth
  induction depth with
  | zero =>
      intro db process stepKey _ _ _ _ bound
      omega
  | succ depth ih => exact enterStepBody_within (enterStep_enters depth) ih

end Recursion

end PaymentWorkflow
