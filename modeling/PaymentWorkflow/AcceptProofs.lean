import PaymentWorkflow.EndingProofs

/-!
The answers of `accept_signal`: what it stores, when it takes a signal for a repeated one, and
what an advance it sets off may raise.
-/

namespace PaymentWorkflow

/-- `accept_signal` would raise for the message when its step reads it from the inbox. -/
def InboxRow.refusedBy (message : InboxRow) (db : Db) : Bool :=
  ¬ isSignalType message.signalType ∨ message.messageId = "" ∨
    db.workflow.signals.any fun row => row.messageId = message.messageId ∧
      ¬ sameSignal row message.processId message.signalType (db.digest message.payload.render)

structure Db.Clear (db : Db) (processId : Nat) : Prop where
  unique : (db.delivery.inbox.map InboxRow.messageId).Nodup
  taken : ∀ message ∈ db.delivery.inbox, message.processId = processId →
    message.state = .received → message.refusedBy db = false

namespace Db.Clear

variable {db later : Db} {processId : Nat}

theorem refusedBy_congr (message : InboxRow) (digest : later.digest = db.digest)
    (signals : later.workflow.signals.map Signal.fixed = db.workflow.signals.map Signal.fixed) :
    message.refusedBy later = message.refusedBy db := by
  have any : ∀ other : Db, (other.workflow.signals.any fun row =>
      row.messageId = message.messageId ∧
        ¬ sameSignal row message.processId message.signalType (db.digest message.payload.render)) =
      (other.workflow.signals.map Signal.fixed).any fun row => row.messageId = message.messageId ∧
        ¬ sameSignal row message.processId message.signalType
          (db.digest message.payload.render) := by
    intro other
    rw [List.any_map]
    rfl
  simp only [InboxRow.refusedBy, digest, any, signals]

theorem of_same (clear : db.Clear processId) (inbox : later.delivery.inbox = db.delivery.inbox)
    (digest : later.digest = db.digest)
    (signals : later.workflow.signals.map Signal.fixed = db.workflow.signals.map Signal.fixed) :
    later.Clear processId where
  unique := inbox ▸ clear.unique
  taken := by
    intro message member owns received
    rw [refusedBy_congr message digest signals]
    exact clear.taken message (inbox ▸ member) owns received

theorem stored (clear : db.Clear processId) {message : InboxRow}
    (member : message ∈ db.delivery.inbox) (_ : message.processId = processId) :
    ((db.insertSignal message.messageId processId message.signalType
      (db.digest message.payload.render)).insertEvent processId none
        .signalAccepted).Clear processId where
  unique := clear.unique
  taken := by
    intro other otherMember otherOwns received
    have before := clear.taken other otherMember otherOwns received
    simp only [InboxRow.refusedBy, Db.insertEvent_workflow_signals,
      Db.insertSignal_workflow_signals, List.any_append] at before ⊢
    by_cases same : other.messageId = message.messageId
    · cases Table.key_unique clear.unique otherMember member same
      simp_all [sameSignal]
    · simp_all [Ne.symm same]

theorem markApplied (clear : db.Clear processId) (messageId : String) :
    (db.markApplied messageId).Clear processId where
  unique := by
    rw [Db.markApplied_delivery_inbox, Table.map_update]
    · exact clear.unique
    · exact fun _ => rfl
  taken := by
    intro message member owns received
    obtain ⟨old, oldMember, rfl⟩ := Table.mem_update.mp member
    by_cases hit : old.messageId = messageId
    · simp [hit] at received
    · simp only [hit, decide_false, Bool.false_eq_true, if_false] at owns received ⊢
      exact clear.taken old oldMember owns received

end Db.Clear

/-! The three answers for a declared type, before anything is stored. -/

section Answers

variable {enter : EnterStep} {db : Db} {processId : Nat} {process : Process}
  {signalType messageId : String} {payload : Json}

def afterStored (enter : EnterStep) (db stored : Db) (process : Process) (signalType : String) :
    Except SqlError (Db × SignalReply) :=
  match stored.waitingStep? process.id with
  | none => .ok (stored, .accepted)
  | some stepInstance =>
      match db.config.stepDefinition? process.flowName process.flowVersion
          stepInstance.stepKey with
      | none => .ok (stored, .accepted)
      | some definition =>
          if definition.params.signalType = some signalType then do
            let applied ← applyReadySignals enter stored process.id stepInstance.id definition.params
            .ok (applied, .accepted)
          else .ok (stored, .accepted)

theorem acceptSignal_known (found : db.workflow.process? processId = some process)
    (declared : declaresSignal db process signalType = true)
    (wellFormed : isSignalType signalType = true) (named : messageId ≠ "") {existing : Signal}
    (known : db.workflow.signal? messageId = some existing) :
    acceptSignal enter db processId signalType messageId payload =
      if sameSignal existing processId signalType (db.digest payload.render) then
        .ok (db, .duplicate)
      else .error (.signalConflict messageId) := by
  simp only [acceptSignal, acceptSignalBody, wellFormed, named, found, declared, known, not_true,
    if_false]
  by_cases same : sameSignal existing processId signalType (db.digest payload.render) = true <;>
    simp [same]

theorem acceptSignal_repeated (found : db.workflow.process? processId = some process)
    (declared : declaresSignal db process signalType = true)
    (wellFormed : isSignalType signalType = true) (named : messageId ≠ "")
    (fresh : db.workflow.signal? messageId = none)
    (stored : (db.workflow.signals.any fun row =>
      sameSignal row processId signalType (db.digest payload.render)) = true) :
    acceptSignal enter db processId signalType messageId payload = .ok (db, .duplicate) := by
  simp only [acceptSignal, acceptSignalBody, wellFormed, named, found, declared, fresh, not_true,
    if_false, stored, if_true]

theorem acceptSignal_new (found : db.workflow.process? processId = some process)
    (declared : declaresSignal db process signalType = true)
    (wellFormed : isSignalType signalType = true) (named : messageId ≠ "")
    (fresh : db.workflow.signal? messageId = none)
    (unused : (db.workflow.signals.any fun row =>
      sameSignal row processId signalType (db.digest payload.render)) = false) :
    acceptSignal enter db processId signalType messageId payload =
      match afterStored enter db ((db.insertSignal messageId processId signalType
          (db.digest payload.render)).insertEvent processId none .signalAccepted) process
            signalType with
      | .error .uniqueViolation => .error (.signalConflict messageId)
      | result => result := by
  obtain rfl := (Table.lookup_mem found).2
  have body : acceptSignalBody enter db process.id signalType messageId payload =
      afterStored enter db ((db.insertSignal messageId process.id signalType
        (db.digest payload.render)).insertEvent process.id none .signalAccepted) process
          signalType := by
    simp only [acceptSignalBody, wellFormed, named, found, declared, fresh, unused, not_true,
      if_false, Bool.false_eq_true]
    rfl
  unfold acceptSignal
  rw [body]
  cases afterStored enter db ((db.insertSignal messageId process.id signalType
      (db.digest payload.render)).insertEvent process.id none .signalAccepted) process
        signalType with
  | ok result => rfl
  | error failure => cases failure <;> simp [fresh, unused]

end Answers

/-! The advance of a process, where no message of its inbox would be refused, can only leave the
map or exceed its depth. -/

/-- The result of a call that raises nothing but the errors of the recursion and of the map. -/
def Bare {Value : Type} (result : Except SqlError Value) (kept : Value → Prop) : Prop :=
  match result with
  | .ok value => kept value
  | .error failure => failure.strays true = true

theorem Bare.bind {Value Result : Type} {first : Except SqlError Value}
    {next : Value → Except SqlError Result} {before : Value → Prop} {kept : Result → Prop}
    (start : Bare first before)
    (rest : ∀ value, first = .ok value → before value → Bare (next value) kept) :
    Bare (first >>= next) kept := by
  cases first with
  | ok value => exact rest value rfl start
  | error failure => exact start

theorem Bare.mono {Value : Type} {result : Except SqlError Value} {before kept : Value → Prop}
    (bare : Bare result before) (weaker : ∀ value, before value → kept value) :
    Bare result kept := by
  cases result with
  | ok value => exact weaker value bare
  | error failure => exact bare

theorem Bare.returns {Value : Type} {result : Except SqlError Value} {kept held : Value → Prop}
    (bare : Bare result kept) (within : Within true result held) :
    ∃ value, result = .ok value := by
  cases result with
  | ok value => exact ⟨value, rfl⟩
  | error failure => exact absurd (bare.symm.trans within) nofun

section Recursion

variable {enter : EnterStep} {db : Db}

def EntersBare (enter : EnterStep) : Prop :=
  ∀ (db : Db) (process : Process) (stepKey : String), db.Rows →
    db.workflow.process? process.id = some process →
    (∀ definition, db.config.stepDefinition? process.flowName process.flowVersion stepKey =
      some definition → (db.placeStep process.id definition).Sound) →
    db.Clear process.id →
      Bare (enter db process.id stepKey) fun later => later.Clear process.id

theorem advance_bare (enters : EntersBare enter) (rows : db.Rows) {process : Process}
    {outcome : Option String} (found : db.workflow.process? process.id = some process)
    (placed : ∀ transition next, db.config.transition? process.flowName process.flowVersion
      process.currentStepKey outcome = some transition →
        db.config.stepDefinition? process.flowName process.flowVersion transition.toStepKey =
          some next → (db.placeStep process.id next).Sound)
    (clear : db.Clear process.id) :
    Bare (advance enter db process.id outcome) fun later => later.Clear process.id := by
  simp only [advance, found]
  split
  · exact clear
  split
  · rfl
  · rename_i transition leads
    exact enters db process _ rows found
      (fun next defined => placed transition next leads defined) clear

theorem applyReadySignals_bare (enters : EntersBare enter) (sound : db.Sound) {process : Process}
    {step : StepInstance} {definition : StepDefinition} (owner : process ∈ db.workflow.processes)
    (member : step ∈ db.workflow.steps) (owns : step.processId = process.id)
    (waits : step.stepType = .waitSignal) (waiting : step.state = .waiting)
    (defined : db.config.stepDefinition? process.flowName process.flowVersion step.stepKey =
      some definition) (clear : db.Clear process.id) :
    Bare (applyReadySignals enter db process.id step.id definition.params) fun later =>
      later.Clear process.id := by
  simp only [applyReadySignals]
  split
  · exact clear
  · rename_i signal ready
    refine advance_bare enters (Db.consumeSignal_rows sound.rows _ _ _ _) (sound.rows.process? owner)
      ?_ (clear.of_same rfl rfl ?_)
    · intro transition next leads placed
      exact (EngineMove.signalled owner member owns waits waiting defined ready leads placed).sound
        sound
    · exact congrArg Fixed.signals Db.fixed_consumeSignal

theorem afterStored_bare (enters : EntersBare enter) {stored : Db} {process : Process}
    {signalType : String} (sound : stored.Sound) (config : stored.config = db.config)
    (owner : process ∈ stored.workflow.processes) (clear : stored.Clear process.id) :
    Bare (afterStored enter db stored process signalType) fun accepted =>
      accepted.1.Clear process.id := by
  simp only [afterStored]
  split
  · exact clear
  rename_i step stepFound
  obtain ⟨stepMember, owns, waits, waiting⟩ : step ∈ stored.workflow.steps ∧
      step.processId = process.id ∧ step.stepType = .waitSignal ∧ step.state = .waiting := by
    simpa using Table.first_mem stepFound
  split
  · exact clear
  rename_i definition defined
  split
  · refine Bare.bind (applyReadySignals_bare enters sound owner stepMember owns waits waiting
      (by rw [config]; exact defined) clear) ?_
    intro applied _ appliedClear
    exact appliedClear
  · exact clear

theorem acceptSignal_bare (enters : EntersBare enter) (sound : db.Sound) {process : Process}
    {message : InboxRow} (found : db.workflow.process? process.id = some process)
    (declared : declaresSignal db process message.signalType = true)
    (member : message ∈ db.delivery.inbox) (owns : message.processId = process.id)
    (received : message.state = .received) (clear : db.Clear process.id) :
    Bare (acceptSignal enter db process.id message.signalType message.messageId message.payload)
      fun accepted => accepted.1.Clear process.id := by
  have taken := clear.taken message member owns received
  simp only [InboxRow.refusedBy, owns, decide_eq_false_iff_not, not_or, Decidable.not_not,
    List.any_eq_true, decide_eq_true_eq, not_exists, not_and] at taken
  obtain ⟨wellFormed, named, agrees⟩ := taken
  cases known : db.workflow.signal? message.messageId with
  | some existing =>
      obtain ⟨existingMember, same⟩ := Table.lookup_mem known
      rw [acceptSignal_known found declared wellFormed named known,
        if_pos (agrees existing existingMember same)]
      exact clear
  | none =>
      by_cases unused : (db.workflow.signals.any fun row => sameSignal row process.id
          message.signalType (db.digest message.payload.render)) = true
      · rw [acceptSignal_repeated found declared wellFormed named known unused]
        exact clear
      · rw [Bool.not_eq_true] at unused
        have move := @EngineMove.stored db process _ _ (db.digest message.payload.render)
          (Table.lookup_mem found).1 declared known unused
        have after := @afterStored_bare enter db enters _ process message.signalType
          (move.sound sound) rfl (Table.lookup_mem found).1 (clear.stored member owns)
        rw [acceptSignal_new found declared wellFormed named known unused]
        split
        · rename_i raised
          rw [raised] at after
          cases after
        · exact after

theorem declares_of_definition {process : Process} {definition : StepDefinition}
    {stepKey signalType : String}
    (defined : db.config.stepDefinition? process.flowName process.flowVersion stepKey =
      some definition) (waits : definition.stepType = .waitSignal)
    (type : definition.params.signalType = some signalType) :
    declaresSignal db process signalType = true := by
  have key := stepDefinition?_key defined
  refine List.any_eq_true.mpr ⟨definition, List.mem_of_find?_eq_some defined, ?_⟩
  simp [key.1, key.2.1, waits, type]

theorem applyInboxForProcess_bare (enters : EntersBare enter) (sound : db.Sound)
    {process : Process} {definition : StepDefinition} {stepKey : String}
    (found : db.workflow.process? process.id = some process)
    (defined : db.config.stepDefinition? process.flowName process.flowVersion stepKey =
      some definition) (waits : definition.stepType = .waitSignal)
    (clear : db.Clear process.id) :
    Bare (applyInboxForProcess enter db process.id definition.params.signalType) fun later =>
      later.Clear process.id := by
  simp only [applyInboxForProcess]
  split
  · exact clear
  rename_i message received
  have chosen := Table.first_mem received
  simp only [List.mem_filter, decide_eq_true_eq] at chosen
  obtain ⟨member, owns, type, state⟩ := chosen
  have declared := declares_of_definition defined waits type.symm
  refine Bare.bind (acceptSignal_bare enters sound found declared member owns state clear) ?_
  intro accepted _ acceptedClear
  exact acceptedClear.markApplied message.messageId

theorem enterWaiting_bare (enters : Enters enter) (inner : EntersBare enter) (sound : db.Sound)
    {process : Process} {step : StepInstance} {definition : StepDefinition}
    (owner : process ∈ db.workflow.processes) (member : step ∈ db.workflow.steps)
    (owns : step.processId = process.id) (waits : step.stepType = .waitSignal)
    (kind : definition.stepType = .waitSignal) (waiting : step.state = .waiting)
    (defined : db.config.stepDefinition? process.flowName process.flowVersion step.stepKey =
      some definition) (clear : db.Clear process.id) :
    Bare (do
      let ready ← applyReadySignals enter db process.id step.id definition.params
      applyInboxForProcess enter ready process.id definition.params.signalType) fun later =>
        later.Clear process.id := by
  refine Bare.bind (applyReadySignals_bare inner sound owner member owns waits waiting defined
    clear) ?_
  intro ready returned readyClear
  have reaches := applyReadySignals_reaches enters sound owner member owns waits waiting defined
    returned
  have readySound := reaches.sound sound
  obtain ⟨after, afterMember, same⟩ := (reaches.moves.kept sound).process owner
  obtain ⟨sameId, sameFlow, sameVersion, _⟩ := Process.fixed_columns same
  have afterDefined : ready.config.stepDefinition? after.flowName after.flowVersion step.stepKey =
      some definition := by
    rw [reaches.moves.config_eq, sameFlow, sameVersion]
    exact defined
  rw [← sameId] at readyClear ⊢
  exact applyInboxForProcess_bare inner readySound (readySound.rows.process? afterMember)
    afterDefined kind readyClear

theorem enterStepBody_bare (enters : Enters enter) (inner : EntersBare enter) :
    EntersBare (enterStepBody enter) := by
  intro db process stepKey rows found sound clear
  simp only [enterStepBody, found]
  split
  · rfl
  rename_i definition defined
  have placedClear : (db.placeStep process.id definition).Clear process.id :=
    clear.of_same (by rw [Db.placeStep_delivery]) (by rw [Db.placeStep_digest])
      (by rw [Db.placeStep_signals])
  split
  · rename_i waits
    have placedOwner : Db.placedProcess definition process ∈
        (db.placeStep process.id definition).workflow.processes := by
      rw [Db.placeStep_processes, Table.mem_update]
      exact ⟨process, (Table.lookup_mem found).1, by simp⟩
    have placedMember : db.placedStep process.id definition ∈
        (db.placeStep process.id definition).workflow.steps := by
      rw [Db.placeStep_steps _ _ _ rows.stepBound]
      simp
    have waiting : (db.placedStep process.id definition).state = .waiting := by
      simp [Db.placedStep, waits, StepType.entryState]
    have placedDefined : (db.placeStep process.id definition).config.stepDefinition?
        (Db.placedProcess definition process).flowName
        (Db.placedProcess definition process).flowVersion
        (db.placedStep process.id definition).stepKey = some definition := by
      rw [Db.placeStep_config]
      show db.config.stepDefinition? _ _ definition.stepKey = _
      rw [(stepDefinition?_key defined).2.2]
      exact defined
    exact @enterWaiting_bare enter (db.placeStep process.id definition) enters inner
      (sound definition defined) (Db.placedProcess definition process)
      (db.placedStep process.id definition) definition placedOwner placedMember rfl waits waits
      waiting placedDefined placedClear
  · exact placedClear

theorem enterStep_bare : ∀ depth, EntersBare (enterStep depth) := by
  intro depth
  induction depth with
  | zero =>
      intro db process stepKey _ _ _ _
      rfl
  | succ depth ih => exact enterStepBody_bare (enterStep_enters depth) ih

end Recursion

/-! Inbox messages keep their ids apart. -/

theorem EngineMove.inboxIds {processId : Nat} {db later : Db}
    (move : EngineMove processId db later) :
    later.delivery.inbox.map InboxRow.messageId = db.delivery.inbox.map InboxRow.messageId := by
  cases move with
  | applied =>
      rw [Db.markApplied_delivery_inbox, Table.map_update]
      exact fun _ => rfl
  | started | signalled | finished | decided => exact congrArg _ (by rw [Db.placeStep_delivery]; rfl)
  | _ => rfl

theorem SystemMoves.inboxIds {db later : Db} (moves : SystemMoves db later) (steady : db.Steady)
    (unique : (db.delivery.inbox.map InboxRow.messageId).Nodup) :
    (later.delivery.inbox.map InboxRow.messageId).Nodup := by
  refine SystemMoves.invariant (fun db => (db.delivery.inbox.map InboxRow.messageId).Nodup)
    ?_ ?_ ?_ moves steady unique
  · intro processId before after _ _ unique move
    rw [move.inboxIds]
    exact unique
  · intro before after _ _ unique move
    cases move with
    | @received external messageId bodyHash processId operation outcome body _ _ _ freshMessage =>
        have absent : ∀ row ∈ before.delivery.inbox, row.messageId ≠ messageId :=
          Table.lookup_eq_none.mp freshMessage
        have inserted : ∀ other : Db, (other.confirmDelivery external.id).delivery.inbox =
            other.delivery.inbox := fun _ => rfl
        rw [inserted, Db.insertReceipt_delivery_inbox, List.map_append, List.nodup_append]
        refine ⟨unique, List.nodup_singleton _, ?_⟩
        intro left inside right single same
        obtain ⟨row, member, rfl⟩ := List.mem_map.mp inside
        rw [List.map_singleton, List.mem_singleton] at single
        exact absent row member (same.trans single)
    | _ => exact unique
  · intro target operation before after _ _ unique move
    cases move
    exact unique

theorem reached_inboxIds (config : Config) (clock : Nat → Time) (digest : String → String)
    (calls : List Call) :
    ((reached config clock digest calls).db.delivery.inbox.map InboxRow.messageId).Nodup :=
  (run_moves calls (fresh config clock digest) initial_steady).inboxIds initial_steady List.nodup_nil

/-! The answers of a call. -/

structure Db.Stores (db later : Db) (messageId : String) (processId : Nat)
    (signalType bodyHash : String) : Prop where
  once : ∃ row, later.workflow.signals.filter (fun row => row.messageId = messageId) = [row] ∧
    sameSignal row processId signalType bodyHash = true
  kept : ∀ before ∈ db.workflow.signals, ∃ after ∈ later.workflow.signals,
    after.fixed = before.fixed

structure Db.Answers (db : Db) (processId : Nat) (signalType messageId : String)
    (payload : Json) : Prop where
  duplicate : ∀ existing, db.workflow.signal? messageId = some existing →
    sameSignal existing processId signalType (db.digest payload.render) = true →
      acceptSignalCall db processId signalType messageId payload = .ok (db, .duplicate)
  conflict : ∀ existing, db.workflow.signal? messageId = some existing →
    sameSignal existing processId signalType (db.digest payload.render) = false →
      acceptSignalCall db processId signalType messageId payload =
        .error (.signalConflict messageId)
  repeated : db.workflow.signal? messageId = none →
    (∃ row ∈ db.workflow.signals,
      sameSignal row processId signalType (db.digest payload.render) = true) →
        acceptSignalCall db processId signalType messageId payload = .ok (db, .duplicate)
  accepted : db.workflow.signal? messageId = none →
    (∀ row ∈ db.workflow.signals,
      sameSignal row processId signalType (db.digest payload.render) = false) →
        ∀ later reply,
          acceptSignalCall db processId signalType messageId payload = .ok (later, reply) →
            reply = .accepted ∧
              db.Stores later messageId processId signalType (db.digest payload.render)
  returns : Published db.config → db.workflow.signal? messageId = none →
    (∀ row ∈ db.workflow.signals,
      sameSignal row processId signalType (db.digest payload.render) = false) →
        (∀ message ∈ db.delivery.inbox, message.processId = processId →
          message.state = .received → message.refusedBy (db.insertSignal messageId processId
            signalType (db.digest payload.render)) = false) →
              ∃ result, acceptSignalCall db processId signalType messageId payload = .ok result

theorem stores_of_reaches {db later : Db} (sound : db.Sound) {processId : Nat}
    {signalType messageId bodyHash : String}
    (move : EngineMove processId db ((db.insertSignal messageId processId signalType
      bodyHash).insertEvent processId none .signalAccepted))
    (reaches : Db.Reaches processId ((db.insertSignal messageId processId signalType
      bodyHash).insertEvent processId none .signalAccepted) later) :
    db.Stores later messageId processId signalType bodyHash := by
  have storedSound := move.sound sound
  have kept := reaches.moves.signals_kept storedSound
  have laterSound := reaches.sound storedSound
  have signal : ∀ row ∈ db.workflow.signals ++ [⟨messageId, processId, signalType, bodyHash,
      .accepted, db.now⟩], ∃ after ∈ later.workflow.signals, after.fixed = row.fixed := by
    intro row member
    exact List.mem_map.mp (kept (List.mem_map_of_mem member))
  obtain ⟨row, member, same⟩ := signal _ (List.mem_append_right _ List.mem_cons_self)
  simp only [Signal.fixed, Signal.mk.injEq] at same
  refine ⟨⟨row, ?_, ?_⟩, fun before beforeMember =>
    signal before (List.mem_append_left _ beforeMember)⟩
  · have only := Table.filter_key laterSound.rows.messageIds member
    rw [same.1] at only
    exact only
  · simp [sameSignal, same]

/-- The answer to every call for a process and a type its map declares. -/
theorem accept_signal_answers (config : Config) (clock : Nat → Time) (digest : String → String)
    (calls : List Call) (processId : Nat) (process : Process) (signalType messageId : String)
    (payload : Json)
    (found : (reached config clock digest calls).db.workflow.process? processId = some process)
    (declared : declaresSignal (reached config clock digest calls).db process signalType = true)
    (wellFormed : isSignalType signalType = true) (named : messageId ≠ "") :
    (reached config clock digest calls).db.Answers processId signalType messageId payload := by
  have calm := (@reached_steady config clock digest calls).calm
  have unique := reached_inboxIds config clock digest calls
  generalize (reached config clock digest calls).db = db at *
  have owner := Table.lookup_mem found
  have enters := enterStep_enters (recursionBound db)
  have unusedAny : (∀ row ∈ db.workflow.signals,
      sameSignal row processId signalType (db.digest payload.render) = false) →
        (db.workflow.signals.any fun row =>
          sameSignal row processId signalType (db.digest payload.render)) = false := by
    intro unused
    rw [List.any_eq_false]
    intro row member
    rw [unused row member]
    nofun
  refine ⟨?_, ?_, ?_, ?_, ?_⟩
  · intro existing known same
    rw [acceptSignalCall, acceptSignal_known found declared wellFormed named known, if_pos same]
  · intro existing known differs
    rw [acceptSignalCall, acceptSignal_known found declared wellFormed named known, differs]
    rfl
  · intro fresh stored
    exact acceptSignal_repeated found declared wellFormed named fresh (List.any_eq_true.mpr stored)
  · intro fresh unused later reply returned
    simp only [acceptSignalCall, acceptSignal, fresh, unusedAny unused, Bool.false_eq_true,
      if_false] at returned
    split at returned
    · cases returned
    · rcases acceptSignalBody_cases enters calm.sound (calm.quiet processId) returned with
        ⟨_, _, known⟩ | ⟨accepted, move, reaches⟩
      · exact absurd fresh known
      · exact ⟨accepted, stores_of_reaches calm.sound move reaches⟩
  · intro published fresh unused clear
    have stays := @acceptSignal_stays db calm published.faithful processId signalType messageId
      payload
    have move := @EngineMove.stored db process _ _ (db.digest payload.render)
      owner.1 declared fresh (by rw [owner.2]; exact unusedAny unused)
    rw [owner.2] at move
    have after := @afterStored_bare (enterStep (recursionBound db)) db (enterStep_bare _) _ process
      signalType (move.sound calm.sound) rfl owner.1 ⟨unique, by rw [owner.2]; exact clear⟩
    have bare : Bare (acceptSignalCall db processId signalType messageId payload)
        fun accepted => accepted.1.Clear process.id := by
      rw [acceptSignalCall, acceptSignal_new found declared wellFormed named fresh
        (unusedAny unused)]
      split
      · rename_i raised
        rw [raised] at after
        cases after
      · exact after
    exact bare.returns stays

theorem accept_signal_answers_prepared :
    (seeded Seed.prepared).db.Answers 1 "payment.receipt" "first" (.object []) :=
  accept_signal_answers Seed.config (fun tick => (tick : Int)) id Seed.prepared 1
    Seed.preparedProcess "payment.receipt" "first" (.object []) (by decide +kernel)
    (by decide +kernel) (by decide) (by decide)

namespace Seed

def advancedProcess : Process :=
  { preparedProcess with state := .running, currentStepKey := some "apply_receipt" }

def signalled : List Call := prepared ++ [.acceptSignal 1 "payment.receipt" "first" (.object [])]

end Seed

theorem repeated_under_new_id :
    (acceptSignalCall (seeded Seed.signalled).db 1 "payment.receipt" "second"
      (.object [])).toOption.map (fun result => (result.1.workflow.signals.length, result.2)) =
        some ((seeded Seed.signalled).db.workflow.signals.length, .duplicate) := by
  decide +kernel

/-- The same payload under another message id is taken for a repeated signal. -/
theorem new_message_not_stored :
    ¬ ∀ (calls : List Call) (processId : Nat) (process : Process) (signalType messageId : String)
      (payload : Json), (seeded calls).db.workflow.process? processId = some process →
        declaresSignal (seeded calls).db process signalType = true → messageId ≠ "" →
          (seeded calls).db.workflow.signal? messageId = none →
            ∃ later, acceptSignalCall (seeded calls).db processId signalType messageId payload =
              .ok (later, .accepted) := by
  intro always
  obtain ⟨later, accepted⟩ := always Seed.signalled 1 Seed.advancedProcess "payment.receipt"
    "second" (.object []) (by decide +kernel) (by decide +kernel) (by decide) (by decide +kernel)
  have answer := repeated_under_new_id
  rw [accepted] at answer
  simp [Except.toOption] at answer

end PaymentWorkflow
