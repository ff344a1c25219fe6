import PaymentWorkflow.FlowRuns
import PaymentWorkflow.StartCore
import PaymentWorkflow.SubmitMoves

/-!
Starts of one process at the same time: the lock on its key lets one of them insert it, and
whoever comes upon it answers with it.
-/

namespace PaymentWorkflow

open RowLocks

section Begin

variable {db later : Db} {flowName businessKey : String} {data : Json} {version : FlowVersion}

theorem Db.Steady.withVersions (steady : db.Steady) (versions : List FlowVersion) :
    (db.withVersions versions).Steady :=
  steady.configure fun _ _ _ => rfl

theorem Db.Pins.configure (pins : db.Pins) {config : Config}
    (bindings : config.flowBindings = db.config.flowBindings) : Db.Pins { db with config } where
  startKeys := pins.startKeys
  events := pins.events
  operations := by
    intro operation member
    have pinned := pins.operations operation member
    simp only [Db.Pinned] at pinned ⊢
    split at pinned
    · exact pinned
    · obtain ⟨moved, submitted, process, inside, id, started⟩ := pinned
      refine ⟨moved, submitted, process, inside, id, started.key, started.data, ?_⟩
      rw [bindings]
      exact started.bound
  externals := pins.externals
  inbox := pins.inbox

theorem Db.Pins.withVersions (pins : db.Pins) (versions : List FlowVersion) :
    (db.withVersions versions).Pins :=
  pins.configure rfl

theorem Db.placeStep_withVersions (versions : List FlowVersion) (processId : Nat)
    (definition : StepDefinition) :
    (db.withVersions versions).placeStep processId definition =
      (db.placeStep processId definition).withVersions versions := by
  rcases definition with ⟨_, _, _, stepType, _⟩
  cases stepType <;> rfl

def Db.newProcess (db : Db) (version : FlowVersion) (flowName businessKey : String) (data : Json) :
    Process :=
  ⟨db.nextId, flowName, version.version, businessKey, .created, none, data⟩

def Db.begun (db : Db) (version : FlowVersion) (flowName businessKey : String) (data : Json)
    (definition : StepDefinition) : Db :=
  ((db.insertProcess flowName version.version businessKey data).insertEvent db.nextId none
    .processStarted).placeStep db.nextId definition

theorem Db.begun_processes (rows : db.Rows) (definition : StepDefinition) :
    (db.begun version flowName businessKey data definition).workflow.processes =
      db.workflow.processes ++
        [placedProcess definition (db.newProcess version flowName businessKey data)] := by
  rw [Db.begun, Db.placeStep_processes, Db.insertEvent_workflow_processes,
    Db.insertProcess_workflow_processes, Table.update_append]
  rw [Table.update_eq_self]
  · simp [Db.newProcess]
  · intro row member
    have bound := rows.processBound row member
    simp only [decide_eq_false_iff_not]
    omega

theorem beginProcess_fresh (steady : db.Steady) (pins : db.Pins) {definition : StepDefinition}
    (defined : db.config.stepDefinition? flowName version.version version.map.startStep =
      some definition) :
    beginProcess db version flowName businessKey data =
      .ok (db.begun version flowName businessKey data definition,
        replyTo (Db.placedProcess definition
          (db.newProcess version flowName businessKey data))) := by
  have found : (db.begun version flowName businessKey data definition).workflow.process? db.nextId =
      some (Db.placedProcess definition (db.newProcess version flowName businessKey data)) := by
    have fresh : Table.lookup Process.id db.nextId db.workflow.processes = none := by
      rw [Table.lookup_eq_none]
      intro row member
      have bound := steady.calm.sound.rows.processBound row member
      omega
    change Table.lookup Process.id db.nextId _ = _
    rw [Db.begun_processes steady.calm.sound.rows, Table.lookup_append, fresh]
    simp [Table.lookup, Db.placedProcess, Db.newProcess]
  simp only [beginProcess]
  rw [enterStep_fresh steady pins businessKey data defined]
  simp only [bind, Except.bind]
  rw [show (((db.insertProcess flowName version.version businessKey data).insertEvent db.nextId none
    .processStarted).placeStep db.nextId definition) =
      db.begun version flowName businessKey data definition from rfl, found]

theorem beginProcess_unknown (rows : db.Rows)
    (undefined : db.config.stepDefinition? flowName version.version version.map.startStep = none) :
    beginProcess db version flowName businessKey data =
      .error (.unknownStep version.map.startStep) := by
  have here := @Db.Rows.process? _ (Db.startRows rows flowName version.version businessKey data)
    (db.newProcess version flowName businessKey data) (by simp [Db.newProcess])
  simp only [beginProcess, recursionBound, enterStep, enterStepBody]
  rw [show (db.newProcess version flowName businessKey data).id = db.nextId from rfl] at here
  rw [here]
  simp only [Db.insertEvent_config, Db.insertProcess_config, Db.newProcess, undefined, bind,
    Except.bind]

theorem startProcessBody_begins (named : isFlowName flowName = true) (keyed : businessKey ≠ "")
    (absent : db.startedProcess? flowName businessKey = none)
    (active : db.activeVersion? flowName = some version) :
    startProcessBody db flowName businessKey data =
      beginProcess db version flowName businessKey data := by
  simp only [startProcessBody, named, keyed, absent, active, not_true_eq_false, if_false]
  rfl

/-- The version may have been replaced since the start has read it. -/
theorem Db.begun_keeps (steady : db.Steady) (pins : db.Pins) (named : isFlowName flowName = true)
    (keyed : businessKey ≠ "") (absent : db.startedProcess? flowName businessKey = none)
    {definition : StepDefinition}
    (defined : db.config.stepDefinition? flowName version.version version.map.startStep =
      some definition) :
    (db.begun version flowName businessKey data definition).Steady ∧
      (db.begun version flowName businessKey data definition).Pins := by
  -- the same start where its version is the active one
  have active : (db.withVersions [⟨flowName, version.version, true, version.map⟩]).activeVersion?
      flowName = some ⟨flowName, version.version, true, version.map⟩ := by
    simp [Db.activeVersion?, Db.withVersions, Table.first_singleton]
  have steadyThere := steady.withVersions [⟨flowName, version.version, true, version.map⟩]
  have pinsThere := pins.withVersions [⟨flowName, version.version, true, version.map⟩]
  have absentThere : (db.withVersions
      [⟨flowName, version.version, true, version.map⟩]).startedProcess? flowName businessKey = none :=
    absent
  have began : startProcess (db.withVersions [⟨flowName, version.version, true, version.map⟩])
      flowName businessKey data =
        .ok ((db.begun version flowName businessKey data definition).withVersions
          [⟨flowName, version.version, true, version.map⟩], replyTo (Db.placedProcess definition
            (db.newProcess version flowName businessKey data))) := by
    have opened := @beginProcess_fresh _ flowName businessKey data
      ⟨flowName, version.version, true, version.map⟩ steadyThere pinsThere definition defined
    rw [startProcess, startProcessBody_begins named keyed absentThere active, opened]
    simp only [Db.begun]
    rw [← Db.placeStep_withVersions]
    rfl
  have moves : SystemMoves (db.withVersions [⟨flowName, version.version, true, version.map⟩])
      ((db.begun version flowName businessKey data definition).withVersions
        [⟨flowName, version.version, true, version.map⟩]) :=
    .single (.inl (.inl ⟨_, startProcess_reaches steadyThere.calm began⟩))
  exact ⟨(moves.steady steadyThere).withVersions
      (db.begun version flowName businessKey data definition).config.flowVersions,
    (moves.pins steadyThere pinsThere).withVersions
      (db.begun version flowName businessKey data definition).config.flowVersions⟩

end Begin

/-! What a call holds, and what the statements before have established for it. -/

def StartCall.held (call : StartCall) : StartStage → List (RowLocks.Request StartRow)
  | .entering _ | .handling true => [⟨.process call.flowName call.key, .update⟩]
  | _ => []

def Activation.foundHeld (activation : Activation) : Option FoundVersion → List (RowLocks.Request StartRow)
  | some found => [⟨.version activation.flowName found.version, .noKeyUpdate⟩]
  | none => []

def Activation.held (activation : Activation) : ActivationStage → List (RowLocks.Request StartRow)
  | .raising found => activation.foundHeld found
  | .indexing found =>
      activation.foundHeld found ++ [⟨.version activation.flowName activation.version, .noKeyUpdate⟩]
  | .committing found =>
      activation.foundHeld found ++
        [⟨.version activation.flowName activation.version, .noKeyUpdate⟩] ++
          [⟨.active activation.flowName, .update⟩]
  | _ => []

def StartParty.held : StartParty → List (RowLocks.Request StartRow)
  | .idle => []
  | .starting call stage => call.held stage
  | .activating activation stage => activation.held stage

theorem startProgram_accounts : startProgram.Accounts StartParty.held where
  releases := by
    intro db party past
    change StartParty.ended (party.perform db).2 = true at past
    change StartParty.held (party.perform db).2 = []
    generalize (party.perform db).2 = next at past
    rcases next with _ | ⟨_, stage⟩ | ⟨_, stage⟩
    · cases past
    · cases stage <;> first | rfl | cases past
    · cases stage <;> first | rfl | cases past
  takes := by
    intro db party running
    change StartParty.ended (party.perform db).2 = false at running
    change StartParty.held (party.perform db).2 = party.held ++ (party.request db).toList
    rcases party with _ | ⟨call, stage⟩ | ⟨activation, stage⟩
    · rfl
    · cases stage with
      | called =>
          simp only [StartParty.perform, StartCall.perform] at running ⊢
          split at running
          · cases running
          rename_i named
          rw [if_neg named]
          split at running
          · cases running
          rename_i keyed
          rw [if_neg keyed]
          cases found : call.existing? db with
          | some existing =>
              rw [found] at running
              cases running
          | none => rfl
      | reading =>
          simp only [StartParty.perform, StartCall.perform] at running ⊢
          cases active : db.activeVersion? call.flowName with
          | none =>
              rw [active] at running
              cases running
          | some version => rfl
      | inserting version =>
          simp only [StartParty.perform, StartCall.perform, StartParty.request, StartCall.request]
          split <;> rfl
      | entering version =>
          simp only [StartParty.perform, StartCall.perform] at running ⊢
          split
          · rename_i began
            rw [began] at running
            cases running
          · rfl
          · rename_i error other began
            rw [began] at running
            cases error with
            | uniqueViolation => exact absurd rfl other
            | _ => cases running
      | handling inserted =>
          simp only [StartParty.perform, StartCall.perform] at running
          split at running <;> cases running
      | ended answer => cases running
    · cases stage with
      | called =>
          simp only [StartParty.perform, Activation.perform] at running ⊢
          split at running
          · cases running
          rename_i valid
          rw [if_neg valid]
          cases found : db.config.flowVersion? activation.flowName activation.version with
          | none =>
              rw [found] at running
              cases running
          | some row => rfl
      | clearing =>
          simp only [StartParty.perform, Activation.perform]
          split <;> rfl
      | locking target => rfl
      | raising found => rfl
      | indexing found =>
          simp only [StartParty.perform, Activation.perform] at running ⊢
          split at running
          · cases running
          rename_i alone
          rw [if_neg alone]
          simp only [Option.not_isSome_iff_eq_none] at alone
          simp [StartParty.held, Activation.held, StartParty.request, Activation.request, alone]
      | committing found => cases running
      | ended answer => cases running

/-! What the others leave as it is, and what a call relies on. -/

structure Db.Onward (db later : Db) : Prop where
  processes : ∃ more, later.workflow.processes = db.workflow.processes ++ more
  active : ∀ flowName, (db.activeVersion? flowName).isSome = true →
    (later.activeVersion? flowName).isSome = true
  published : ∀ flowName version, (db.config.flowVersion? flowName version).isSome = true →
    (later.config.flowVersion? flowName version).isSome = true

structure StartCall.Checked (call : StartCall) : Prop where
  named : isFlowName call.flowName = true
  keyed : call.key ≠ ""

def StartCall.Holds (call : StartCall) (db : Db) : StartStage → Prop
  | .called => True
  | .reading => call.Checked ∧ ((call.existing? db).isSome = true →
      (db.activeVersion? call.flowName).isSome = true)
  | .inserting _ => call.Checked ∧ (db.activeVersion? call.flowName).isSome = true
  | .entering _ => call.Checked ∧ (db.activeVersion? call.flowName).isSome = true ∧
      call.existing? db = none
  | .handling inserted => inserted = false ∧ call.Checked ∧ (call.existing? db).isSome = true
  | .ended answer => ∀ reply, answer = .ok reply → ∃ process,
      call.existing? db = some process ∧ process.data.same call.content = true ∧
        reply = replyTo process

def Activation.Holds (activation : Activation) (db : Db) : ActivationStage → Prop
  | .called | .ended _ => True
  | .clearing | .locking _ | .raising _ | .indexing _ | .committing _ =>
      (db.config.flowVersion? activation.flowName activation.version).isSome = true

def StartParty.Holds (db : Db) : StartParty → Prop
  | .idle => True
  | .starting call stage => call.Holds db stage
  | .activating activation stage => activation.Holds db stage

section Onward

variable {db later : Db}

theorem Db.activeVersion?_isSome {flowName : String} :
    (db.activeVersion? flowName).isSome = true ↔
      ∃ row ∈ db.config.flowVersions, row.flowName = flowName ∧ row.isActive = true := by
  rw [Option.isSome_iff_ne_none, Ne, Db.activeVersion?, Table.first_eq_none,
    List.filter_eq_nil_iff]
  simp

theorem Config.flowVersion?_isSome {config : Config} {flowName : String} {version : Int} :
    (config.flowVersion? flowName version).isSome = true ↔
      ∃ row ∈ config.flowVersions, row.flowName = flowName ∧ row.version = version := by
  simp [Config.flowVersion?, List.find?_isSome]

theorem Db.Onward.refl (db : Db) : db.Onward db :=
  ⟨⟨[], by simp⟩, fun _ active => active, fun _ _ published => published⟩

theorem Activation.commit_onward {activation : Activation} {found : Option FoundVersion}
    (published : (db.config.flowVersion? activation.flowName activation.version).isSome = true) :
    db.Onward (activation.commit db found) where
  processes := ⟨[], by simp [commit, Db.withVersions]⟩
  active := by
    intro flowName active
    rw [Db.activeVersion?_isSome] at active ⊢
    by_cases same : flowName = activation.flowName
    · obtain ⟨row, member, named, number⟩ := Config.flowVersion?_isSome.mp published
      refine ⟨_, List.mem_map_of_mem member, ?_⟩
      simp [named, number, same]
    · obtain ⟨row, member, named, raised⟩ := active
      refine ⟨_, List.mem_map_of_mem member, ?_⟩
      have other : row.flowName ≠ activation.flowName := named ▸ same
      simp only [if_neg other]
      exact ⟨named, raised⟩
  published := by
    intro flowName version known
    rw [Config.flowVersion?_isSome] at known ⊢
    obtain ⟨row, member, named, number⟩ := known
    refine ⟨_, List.mem_map_of_mem member, ?_⟩
    by_cases same : row.flowName = activation.flowName
    · simp [same, ← named, number]
    · simp only [if_neg same]
      exact ⟨named, number⟩

theorem Db.begun_onward (rows : db.Rows) {version : FlowVersion} {flowName businessKey : String}
    {data : Json} {definition : StepDefinition} :
    db.Onward (db.begun version flowName businessKey data definition) := by
  have config : (db.begun version flowName businessKey data definition).config = db.config :=
    Db.placeStep_config _ _ _
  refine ⟨⟨_, Db.begun_processes rows definition⟩, fun other active => ?_,
    fun other number published => ?_⟩
  · rw [Db.activeVersion?, config]
    exact active
  · rw [config]
    exact published

theorem Db.Onward.startedProcess? (onward : db.Onward later) {flowName businessKey : String}
    {process : Process} (found : db.startedProcess? flowName businessKey = some process) :
    later.startedProcess? flowName businessKey = some process := by
  obtain ⟨more, appended⟩ := onward.processes
  rw [Db.startedProcess?, appended, List.find?_append,
    show db.workflow.processes.find? _ = some process from found]
  rfl

/-- What a call relies on outlasts the turns of the others, as long as nobody inserts the process
that it is inserting. -/
theorem StartCall.Holds.keep {call : StartCall} {stage : StartStage} (holds : call.Holds db stage)
    (onward : db.Onward later)
    (arrives : call.existing? db = none → (call.existing? later).isSome = true →
      (later.activeVersion? call.flowName).isSome = true ∧ ∀ version, stage ≠ .entering version) :
    call.Holds later stage := by
  have stays : (call.existing? db).isSome = true → (call.existing? later).isSome = true := by
    intro known
    obtain ⟨process, found⟩ := Option.isSome_iff_exists.mp known
    rw [existing?, onward.startedProcess? found]
    rfl
  cases stage with
  | called => trivial
  | reading =>
      refine ⟨holds.1, fun known => ?_⟩
      cases before : call.existing? db with
      | some process => exact onward.active _ (holds.2 (by rw [before]; rfl))
      | none => exact (arrives before known).1
  | inserting version => exact ⟨holds.1, onward.active _ holds.2⟩
  | entering version =>
      refine ⟨holds.1, onward.active _ holds.2.1, ?_⟩
      by_contra present
      exact (arrives holds.2.2 (Option.isSome_iff_ne_none.mpr present)).2 version rfl
  | handling inserted => exact ⟨holds.1, holds.2.1, stays holds.2.2⟩
  | ended answer =>
      intro reply answered
      obtain ⟨process, found, same, reads⟩ := holds reply answered
      exact ⟨process, onward.startedProcess? found, same, reads⟩

theorem Activation.Holds.keep {activation : Activation} {stage : ActivationStage}
    (holds : activation.Holds db stage) (onward : db.Onward later) :
    activation.Holds later stage := by
  cases stage with
  | called | ended => trivial
  | clearing | locking | raising | indexing | committing => exact onward.published _ _ holds

end Onward

/-! One statement, on what the statements before it have read. -/

def StartCall.placed (call : StartCall) (db : Db) (version : FlowVersion)
    (definition : StepDefinition) : Process :=
  Db.placedProcess definition (db.newProcess version call.flowName call.key call.content)

section Statements

variable {db : Db} {call : StartCall} {stage : StartStage} {version : FlowVersion}
  {definition : StepDefinition}

theorem StartCall.replay_eq_ok {process : Process} {reply : StartReply}
    (answered : call.replay process = .ok reply) :
    process.data.same call.content = true ∧ reply = replyTo process := by
  unfold replay at answered
  split at answered
  · rename_i same
    exact ⟨same, (Except.ok.inj answered).symm⟩
  · cases answered

theorem StartCall.existing?_begun (rows : db.Rows) (absent : call.existing? db = none) :
    call.existing? (db.begun version call.flowName call.key call.content definition) =
      some (call.placed db version definition) := by
  rw [existing?, Db.startedProcess?, Db.begun_processes rows, List.find?_append,
    show db.workflow.processes.find? _ = none from absent]
  simp [placed, Db.placedProcess, Db.newProcess]

/-- A start changes the tables with its last statement only, and then it has inserted the process.
A call that ends otherwise answers with the process there is. -/
theorem StartCall.perform_cases (steady : db.Steady) (pins : db.Pins)
    (holds : call.Holds db stage) :
    (∃ next, call.perform db stage = (db, next) ∧ call.Holds db next ∧
      ∀ answer, next = .ended answer → stage = .ended answer ∨
        ∀ process, call.Checked → call.existing? db = some process →
          answer = call.replay process) ∨
    ∃ version definition, stage = .entering version ∧
      db.config.stepDefinition? call.flowName version.version version.map.startStep =
        some definition ∧
      call.perform db stage =
        (db.begun version call.flowName call.key call.content definition,
          .ended (.ok (replyTo (call.placed db version definition)))) := by
  cases stage with
  | called =>
      left
      simp only [perform]
      split
      · rename_i unnamed
        refine ⟨_, rfl, nofun, fun answer _ => .inr fun process checked => ?_⟩
        exact absurd checked.named unnamed
      rename_i named
      split
      · rename_i unkeyed
        refine ⟨_, rfl, nofun, fun answer _ => .inr fun process checked => ?_⟩
        exact absurd unkeyed checked.keyed
      rename_i keyed
      cases found : call.existing? db with
      | some existing =>
          refine ⟨_, rfl, fun reply answered => ?_, ?_⟩
          · obtain ⟨same, reads⟩ := replay_eq_ok answered
            exact ⟨existing, found, same, reads⟩
          · rintro answer ⟨⟩
            exact .inr fun process _ again => by rw [Option.some.inj again]
      | none =>
          exact ⟨_, rfl, ⟨⟨not_not.mp named, keyed⟩, fun known => by simp [found] at known⟩, nofun⟩
  | reading =>
      left
      simp only [perform]
      cases active : db.activeVersion? call.flowName with
      | none =>
          refine ⟨_, rfl, nofun, fun answer _ => .inr fun process _ known => ?_⟩
          have raised := holds.2 (by rw [known]; rfl)
          rw [active] at raised
          cases raised
      | some version => exact ⟨_, rfl, ⟨holds.1, by rw [active]; rfl⟩, nofun⟩
  | inserting version =>
      left
      simp only [perform]
      split
      · rename_i known
        exact ⟨_, rfl, ⟨rfl, holds.1, known⟩, nofun⟩
      · rename_i absent
        exact ⟨_, rfl, ⟨holds.1, holds.2, Option.not_isSome_iff_eq_none.mp absent⟩, nofun⟩
  | entering version =>
      simp only [perform]
      cases defined : db.config.stepDefinition? call.flowName version.version
          version.map.startStep with
      | none =>
          left
          rw [beginProcess_unknown steady.calm.sound.rows defined]
          refine ⟨_, rfl, nofun, fun answer _ => .inr fun process _ known => ?_⟩
          rw [holds.2.2] at known
          cases known
      | some definition =>
          right
          rw [beginProcess_fresh steady pins defined]
          exact ⟨version, definition, rfl, defined, rfl⟩
  | handling inserted =>
      left
      obtain ⟨process, found⟩ := Option.isSome_iff_exists.mp holds.2.2
      simp only [perform, found]
      refine ⟨_, rfl, fun reply answered => ?_, ?_⟩
      · obtain ⟨same, reads⟩ := replay_eq_ok answered
        exact ⟨process, found, same, reads⟩
      · rintro answer ⟨⟩
        exact .inr fun other _ again => by rw [Option.some.inj again]
  | ended answer => exact .inl ⟨_, rfl, holds, fun other same => .inl same⟩

theorem Activation.perform_cases {activation : Activation} {stage : ActivationStage}
    (holds : activation.Holds db stage) :
    (∃ next, activation.perform db stage = (db, next) ∧ activation.Holds db next) ∨
    ∃ found, stage = .committing found ∧
      activation.perform db stage = (activation.commit db found, .ended (.ok ())) := by
  cases stage with
  | called =>
      left
      simp only [perform]
      split
      · exact ⟨_, rfl, trivial⟩
      cases found : db.config.flowVersion? activation.flowName activation.version with
      | none => exact ⟨_, rfl, trivial⟩
      | some row => exact ⟨_, rfl, by simp [Holds, found]⟩
  | clearing =>
      left
      simp only [perform]
      split
      · exact ⟨_, rfl, holds⟩
      · exact ⟨_, rfl, holds⟩
  | locking target => exact .inl ⟨_, rfl, holds⟩
  | raising found => exact .inl ⟨_, rfl, holds⟩
  | indexing found =>
      left
      simp only [perform]
      split
      · exact ⟨_, rfl, trivial⟩
      · exact ⟨_, rfl, holds⟩
  | committing found => exact .inr ⟨found, rfl, rfl⟩
  | ended answer => exact .inl ⟨_, rfl, trivial⟩

end Statements

/-! Any number of calls, taking turns. -/

structure StartServer.Sound (server : StartServer) : Prop where
  accounted : server.Accounted StartParty.held
  compatible : server.Compatible
  steady : server.shared.Steady
  pins : server.shared.Pins
  holds : ∀ index, (server.party index).Holds server.shared

def StartParty.Answers (db : Db) (before after : StartParty) : Prop :=
  ∀ call answer, after = .starting call (.ended answer) → before = after ∨
    ∀ process, call.Checked → call.existing? db = some process → answer = call.replay process

section Turns

variable {server : StartServer}

theorem StartServer.Sound.turn_cases (sound : StartServer.Sound server) (index : Nat) :
    ((startProgram.turn server index).shared = server.shared ∧
      ((startProgram.turn server index).party index).Holds server.shared ∧
      (server.party index).Answers server.shared ((startProgram.turn server index).party index) ∧
      ∀ other, other ≠ index → (startProgram.turn server index).party other = server.party other) ∨
    (∃ activation found, server.party index = .activating activation (.committing found) ∧
      (startProgram.turn server index).shared = activation.commit server.shared found ∧
      (startProgram.turn server index).party index = .activating activation (.ended (.ok ())) ∧
      ∀ other, other ≠ index → (startProgram.turn server index).party other = server.party other) ∨
    ∃ call version definition, server.party index = .starting call (.entering version) ∧
      server.shared.config.stepDefinition? call.flowName version.version version.map.startStep =
        some definition ∧
      (startProgram.turn server index).shared =
        server.shared.begun version call.flowName call.key call.content definition ∧
      (startProgram.turn server index).party index =
        .starting call (.ended (.ok (replyTo (call.placed server.shared version definition)))) ∧
      ∀ other, other ≠ index →
        (startProgram.turn server index).party other = server.party other := by
  have holds := sound.holds index
  unfold Program.turn
  split
  · have others : ∀ other, other ≠ index →
        (startProgram.proceed server index).party other = server.party other :=
      fun other different => Program.proceed_other _ _ _ different
    simp only [Program.proceed_shared, Program.proceed_own]
    change (((server.party index).perform server.shared).1 = server.shared ∧
      ((server.party index).perform server.shared).2.Holds server.shared ∧
      (server.party index).Answers server.shared ((server.party index).perform server.shared).2 ∧
      _) ∨ (∃ activation found, _ ∧ ((server.party index).perform server.shared).1 = _ ∧
      ((server.party index).perform server.shared).2 = _ ∧ _) ∨
      ∃ call version definition, _ ∧ _ ∧ ((server.party index).perform server.shared).1 = _ ∧
        ((server.party index).perform server.shared).2 = _ ∧ _
    cases party : server.party index with
    | idle => exact .inl ⟨rfl, trivial, by rintro _ _ ⟨⟩, others⟩
    | starting call stage =>
        rw [party] at holds
        rcases call.perform_cases sound.steady sound.pins holds with
          ⟨next, performed, held, answers⟩ | ⟨version, definition, rfl, defined, performed⟩
        · left
          simp only [StartParty.perform, performed]
          refine ⟨trivial, held, ?_, others⟩
          rintro _ answer ⟨⟩
          rcases answers answer rfl with rfl | answered
          · exact .inl rfl
          · exact .inr answered
        · refine .inr (.inr ⟨call, version, definition, rfl, defined, ?_⟩)
          simp only [StartParty.perform, performed]
          exact ⟨trivial, trivial, others⟩
    | activating activation stage =>
        rw [party] at holds
        rcases activation.perform_cases holds with ⟨next, performed, held⟩ | ⟨found, rfl, performed⟩
        · left
          simp only [StartParty.perform, performed]
          exact ⟨trivial, held, by rintro _ _ ⟨⟩, others⟩
        · refine .inr (.inl ⟨activation, found, rfl, ?_⟩)
          simp only [StartParty.perform, performed]
          exact ⟨trivial, trivial, others⟩
  · exact .inl ⟨rfl, holds, fun _ _ _ => .inl rfl, fun _ _ => rfl⟩

theorem StartServer.Sound.alone (sound : StartServer.Sound server) {left right : Nat}
    (different : left ≠ right) {call other : StartCall} {version late : FlowVersion}
    (entering : server.party left = .starting call (.entering version))
    (also : server.party right = .starting other (.entering late)) :
    ¬ (call.flowName = other.flowName ∧ call.key = other.key) := by
  rintro ⟨flow, key⟩
  have taken : (⟨.process call.flowName call.key, .update⟩ : RowLocks.Request StartRow) ∈
      (server.party left).held := by
    simp [entering, StartParty.held, StartCall.held]
  have again : (⟨.process other.flowName other.key, .update⟩ : RowLocks.Request StartRow) ∈
      (server.party right).held := by
    simp [also, StartParty.held, StartCall.held]
  have clash := Program.held_compatible sound.accounted sound.compatible different taken again
    (by rw [flow, key])
  cases clash

theorem StartServer.Sound.turn (sound : StartServer.Sound server) (index : Nat) :
    StartServer.Sound (startProgram.turn server index) := by
  have accounted := startProgram_accounts.turn sound.accounted index
  have compatible := sound.compatible.turn startProgram index
  have holds := sound.holds index
  rcases sound.turn_cases index with ⟨same, own, _, others⟩ |
    ⟨activation, found, party, shared, answered, others⟩ |
    ⟨call, version, definition, party, defined, shared, answered, others⟩
  · refine ⟨accounted, compatible, same ▸ sound.steady, same ▸ sound.pins, fun other => ?_⟩
    rw [same]
    by_cases mine : other = index
    · rw [mine]
      exact own
    · rw [others other mine]
      exact sound.holds other
  · rw [party] at holds
    have onward := @Activation.commit_onward server.shared activation found holds
    refine ⟨accounted, compatible, shared ▸ sound.steady.withVersions _,
      shared ▸ sound.pins.withVersions _, fun other => ?_⟩
    rw [shared]
    by_cases mine : other = index
    · rw [mine, answered]
      trivial
    · rw [others other mine]
      have before := sound.holds other
      cases stage : server.party other with
      | idle => trivial
      | starting call stage' =>
          rw [stage] at before
          refine StartCall.Holds.keep before onward fun absent known => ?_
          change (call.existing? server.shared).isSome = true at known
          rw [absent] at known
          cases known
      | activating activation' stage' =>
          rw [stage] at before
          exact Activation.Holds.keep before onward
  · rw [party] at holds
    obtain ⟨checked, active, absent⟩ := holds
    have rows := sound.steady.calm.sound.rows
    have inserted := @StartCall.existing?_begun server.shared call version definition rows absent
    obtain ⟨steady, pins⟩ := Db.begun_keeps sound.steady sound.pins checked.named checked.keyed
      absent defined
    have onward := @Db.begun_onward server.shared rows version call.flowName call.key call.content
      definition
    refine ⟨accounted, compatible, shared ▸ steady, shared ▸ pins, fun other => ?_⟩
    rw [shared]
    by_cases mine : other = index
    · rw [mine, answered]
      rintro reply ⟨⟩
      exact ⟨_, inserted, Json.same_refl call.content, rfl⟩
    · rw [others other mine]
      have before := sound.holds other
      cases stage : server.party other with
      | idle => trivial
      | starting rival late =>
          rw [stage] at before
          refine StartCall.Holds.keep before onward fun missing known => ?_
          -- only the new process can have come
          have same : call.flowName = rival.flowName ∧ call.key = rival.key := by
            rw [StartCall.existing?, Db.startedProcess?, Db.begun_processes rows, List.find?_append,
              show server.shared.workflow.processes.find? _ = none from missing] at known
            simp only [Option.none_or, List.find?_singleton, Db.placedProcess, Db.newProcess] at known
            split at known
            · rename_i same
              exact of_decide_eq_true same
            · cases known
          refine ⟨onward.active _ (same.1 ▸ active), fun version entering => ?_⟩
          rw [entering] at stage
          exact sound.alone (Ne.symm mine) party stage same
      | activating activation late =>
          rw [stage] at before
          exact Activation.Holds.keep before onward

theorem StartServer.start_sound {db : Db} (steady : db.Steady) (pins : db.Pins)
    (requests : Nat → Option StartRequest) : StartServer.Sound (StartServer.start db requests) where
  accounted := by
    intro lock
    refine iff_of_false List.not_mem_nil ?_
    change lock.toRequest ∉ (StartRequest.party (requests lock.owner)).held
    rcases requests lock.owner with _ | (_ | _) <;> exact List.not_mem_nil
  compatible := nofun
  steady := steady
  pins := pins
  holds := by
    intro index
    change (StartRequest.party (requests index)).Holds db
    rcases requests index with _ | (_ | _) <;> trivial

end Turns

/-! The call by itself. -/

/-- The statements of one call, one after the other, are `start_process`. -/
theorem StartCall.alone (call : StartCall) (db : Db) :
    (fun state => call.perform state.1 state.2)^[5] (db, .called) =
      match startProcess db call.flowName call.key call.content with
      | .ok (later, reply) => (later, .ended (.ok reply))
      | .error error => (db, .ended (.error error)) := by
  simp only [Function.iterate_succ, Function.iterate_zero, Function.comp_apply, id_eq]
  by_cases named : isFlowName call.flowName = true
  case neg => simp [perform, startProcess, startProcessBody, named]
  by_cases keyed : call.key = ""
  case pos => simp [perform, startProcess, startProcessBody, named, keyed]
  cases found : db.startedProcess? call.flowName call.key with
  | some existing =>
      by_cases same : existing.data.same call.content = true <;>
        simp [perform, startProcess, startProcessBody, named, keyed, existing?, found, replay, same]
  | none =>
      cases active : db.activeVersion? call.flowName with
      | none =>
          simp [perform, startProcess, startProcessBody, named, keyed, existing?, found, active]
      | some version =>
          rw [startProcess, startProcessBody_begins named keyed found active]
          cases began : beginProcess db version call.flowName call.key call.content with
          | ok done => simp [perform, named, keyed, existing?, found, active, began]
          | error error =>
              cases error with
              | uniqueViolation => simp [perform, named, keyed, existing?, found, active, began]
              | _ => simp [perform, named, keyed, existing?, found, active, began]

def Db.SingleActive (db : Db) : Prop :=
  ∀ left ∈ db.config.flowVersions, ∀ right ∈ db.config.flowVersions,
    left.flowName = right.flowName → left.isActive = true → right.isActive = true →
      left.version = right.version

/-- The statements of one activation, one after the other, are `activate_flow`. -/
theorem Activation.alone (activation : Activation) {db : Db} (single : db.SingleActive) :
    (fun state => activation.perform state.1 state.2)^[6] (db, .called) =
      match activateFlow db.config activation.flowName activation.version with
      | .ok config => ({ db with config }, .ended (.ok ()))
      | .error error => (db, .ended (.error (.inl error))) := by
  simp only [Function.iterate_succ, Function.iterate_zero, Function.comp_apply, id_eq]
  by_cases valid : ¬ isFlowName activation.flowName ∨ activation.version < 1
  case pos => simp only [perform, activateFlow, if_pos valid]
  cases published : db.config.flowVersion? activation.flowName activation.version with
  | none => simp only [perform, activateFlow, if_neg valid, published]
  | some row =>
      -- the first UPDATE has cleared whatever was active
      have commits : ∀ found, (∀ row ∈ db.config.flowVersions,
          row.flowName = activation.flowName → row.isActive = true → cleared found row = true) →
          activation.rival? db found = none ∧ activation.commit db found =
            db.withVersions (db.config.flowVersions.map fun row =>
              if row.flowName = activation.flowName then
                { row with isActive := row.version = activation.version }
              else row) := by
        intro found clears
        constructor
        · refine List.find?_eq_none.mpr fun row member rival => ?_
          simp only [decide_eq_true_eq] at rival
          exact rival.2.2.2 (clears row member rival.1 rival.2.1)
        · refine congrArg db.withVersions (List.map_congr_left fun row member => ?_)
          by_cases same : row.flowName = activation.flowName
          · simp only [if_pos same]
            cases raised : row.isActive with
            | false => simp
            | true => simp [clears row member same raised]
          · simp only [if_neg same]
      cases running : db.activeVersion? activation.flowName with
      | none =>
          have nothing := commits none fun row member same raised => by
            have some := Db.activeVersion?_isSome.mpr ⟨row, member, same, raised⟩
            simp [running] at some
          simp only [perform, activateFlow, if_neg valid, published, running, nothing.1, nothing.2,
            Option.isSome_none, Bool.false_eq_true, if_false]
          rfl
      | some target =>
          have facts := Table.first_mem running
          simp only [List.mem_filter, decide_eq_true_eq] at facts
          have still : (db.config.flowVersions.any fun row => row.flowName = activation.flowName ∧
              row.version = target.version ∧ row.isActive) = true :=
            List.any_eq_true.mpr ⟨target, facts.1, by simp [facts.2]⟩
          have one := commits (some ⟨target.version, true⟩) fun row member same raised => by
            simp [cleared, single target facts.1 row member (facts.2.1.trans same.symm) facts.2.2
              raised]
          simp only [perform, activateFlow, if_neg valid, published, running, still, one.1, one.2,
            Option.isSome_none, Bool.false_eq_true, if_false]
          rfl

namespace Deployment

variable {base : Config} {clock : Nat → Time} {digest : String → String}

theorem step_pins {deployment : Deployment} (sound : deployment.Sound)
    (pins : deployment.system.db.Pins) (request : Request) :
    (deployment.step request).system.db.Pins := by
  cases request with
  | publishFlow map => exact pins.configure rfl
  | activateFlow flow version => exact pins.configure rfl
  | call call => exact (step_moves sound.steady call).pins sound.steady pins

theorem reached_pins (requests : List Request) :
    (reached base clock digest requests).system.db.Pins := by
  have both := Runs.run_invariant
    (fun deployment : Deployment => deployment.Sound ∧ deployment.system.db.Pins)
    (fun deployment request holds =>
      ⟨(step_sound holds.1 request).1, step_pins holds.1 holds.2 request⟩)
    requests (fresh base clock digest)
    ⟨fresh_sound, by constructor <;> simp [fresh, PaymentWorkflow.fresh, Db.initial]⟩
  exact both.2

end Deployment

/-- Whoever wins the race for a key has inserted the one process under it; every other start that
ends once it is there answers with it or with the conflict, and has changed nothing. -/
theorem start_process_idempotent (base : Config) (clock : Nat → Time) (digest : String → String)
    (history : List Request) (active : String → Option Int)
    (requests : Nat → Option StartRequest) (turns : List Nat) :
    let start := (Deployment.reached base clock digest history).system.db.flagged active
    let server := Runs.run startProgram.turn (StartServer.start start requests) turns
    (∀ index call reply, server.party index = .starting call (.ended (.ok reply)) →
      ∃ process, (server.shared.workflow.processes.filter fun row =>
          row.flowName = call.flowName ∧ row.businessKey = call.key) = [process] ∧
        process.data.same call.content = true ∧ reply = replyTo process) ∧
    ∀ index,
      let next := startProgram.turn server index
      (∀ process ∈ server.shared.workflow.processes, process ∈ next.shared.workflow.processes) ∧
      ∀ call stage, server.party index = .starting call stage →
        (next.shared = server.shared ∨ ∃ process, call.existing? server.shared = none ∧
          call.existing? next.shared = some process ∧
          next.party index = .starting call (.ended (.ok (replyTo process)))) ∧
        ∀ answer, next.party index = .starting call (.ended answer) →
          (∀ earlier, stage ≠ .ended earlier) → isFlowName call.flowName = true → call.key ≠ "" →
          ∀ process, call.existing? next.shared = some process →
            (process.data.same call.content = true → answer = .ok (replyTo process)) ∧
            (process.data.same call.content = false → answer = .error (.startConflict call.key)) := by
  intro start server
  have sound : StartServer.Sound server :=
    Runs.run_invariant StartServer.Sound (fun _ index sound => sound.turn index) turns _
      (StartServer.start_sound ((Deployment.reached_sound history).steady.withVersions _)
        ((Deployment.reached_pins history).withVersions _) requests)
  refine ⟨?_, fun index => ?_⟩
  · intro index call reply party
    have holds := sound.holds index
    rw [party] at holds
    obtain ⟨process, found, same, reads⟩ := holds reply rfl
    obtain ⟨member, key⟩ := Db.startedProcess?_key found
    refine ⟨process, ?_, same, reads⟩
    rw [← Table.filter_key sound.pins.startKeys member, key]
    simp only [Process.startKey, Prod.mk.injEq]
  · have holds := sound.holds index
    have stays : ∀ {later : Db}, server.shared.Onward later →
        ∀ process ∈ server.shared.workflow.processes, process ∈ later.workflow.processes := by
      intro later onward process member
      obtain ⟨more, appended⟩ := onward.processes
      rw [appended]
      exact List.mem_append_left _ member
    have replays : ∀ {call : StartCall} {process : Process} {answer},
        answer = call.replay process →
          (process.data.same call.content = true → answer = .ok (replyTo process)) ∧
          (process.data.same call.content = false → answer = .error (.startConflict call.key)) := by
      rintro call process answer rfl
      exact ⟨fun same => if_pos same, fun different => if_neg (by rw [different]; decide)⟩
    rcases sound.turn_cases index with ⟨same, _, answers, _⟩ |
      ⟨activation, found, party, shared, _⟩ |
      ⟨call, version, definition, party, defined, shared, answered, _⟩
    · refine ⟨stays (same ▸ .refl _), fun call stage party => ⟨.inl same, ?_⟩⟩
      intro answer ended running named keyed process known
      rw [same] at known
      rcases answers call answer ended with before | answered
      · rw [party, ended] at before
        cases before
        exact absurd rfl (running answer)
      · exact replays (answered process ⟨named, keyed⟩ known)
    · rw [party] at holds
      refine ⟨stays (shared ▸ Activation.commit_onward holds), fun call stage starting => ?_⟩
      rw [party] at starting
      cases starting
    · rw [party] at holds
      have rows := sound.steady.calm.sound.rows
      have inserted := @StartCall.existing?_begun server.shared call version definition rows
        holds.2.2
      refine ⟨stays (shared ▸ Db.begun_onward rows), fun other stage starting => ?_⟩
      rw [party] at starting
      cases starting
      refine ⟨.inr ⟨_, holds.2.2, shared ▸ inserted, answered⟩, ?_⟩
      intro answer ended _ _ _ process known
      rw [shared, inserted] at known
      cases known
      rw [answered] at ended
      cases ended
      refine ⟨fun _ => rfl, fun different => ?_⟩
      have same := Json.same_refl call.content
      rw [show call.content = _ from rfl] at different
      exact absurd same (by rw [← Bool.not_eq_true] at different; exact different)

end PaymentWorkflow
