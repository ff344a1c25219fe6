import Mathlib.Data.String.Basic
import PaymentWorkflow.AcceptProofs

/-!
The messages of its inbox a process reads as it enters a step: one for every step that waits for a
receipt and is entered because of signals stored before, in the order they were received in.
-/

namespace PaymentWorkflow

/-! The messages, in order. -/

theorem Table.first_eq_head {Row : Type} {before : Row → Row → Bool} {upTo : Row → Row → Prop}
    [DecidableRel upTo] (agree : ∀ left right, upTo left right ↔ before right left = false)
    (table : List Row) : Table.first before table = (table.insertionSort upTo).head? := by
  induction table with
  | nil => rfl
  | cons row rest ih =>
      rw [Table.first, ih, List.insertionSort_cons]
      cases sorted : rest.insertionSort upTo with
      | nil => rfl
      | cons best others =>
          rw [List.orderedInsert_cons]
          by_cases hit : before best row = true
          · have after : ¬ upTo row best := fun order => by simp [(agree row best).mp order] at hit
            simp [hit, after]
          · have order : upTo row best := (agree row best).mpr (Bool.not_eq_true _ ▸ hit)
            simp [hit, order]

def InboxRow.upTo (left right : InboxRow) : Prop :=
  left.receivedAt < right.receivedAt ∨
    (left.receivedAt = right.receivedAt ∧ left.messageId ≤ right.messageId)

namespace InboxRow

instance : DecidableRel upTo := fun left right =>
  inferInstanceAs (Decidable (left.receivedAt < right.receivedAt ∨
    (left.receivedAt = right.receivedAt ∧ left.messageId ≤ right.messageId)))

theorem upTo_total (left right : InboxRow) : left.upTo right ∨ right.upTo left := by
  rcases Int.lt_trichotomy left.receivedAt right.receivedAt with earlier | same | later
  · exact .inl (.inl earlier)
  · rcases String.le_total left.messageId right.messageId with first | second
    · exact .inl (.inr ⟨same, first⟩)
    · exact .inr (.inr ⟨same.symm, second⟩)
  · exact .inr (.inl later)

theorem upTo_trans {first second third : InboxRow} (before : first.upTo second)
    (after : second.upTo third) : first.upTo third := by
  rcases before with earlier | ⟨same, ordered⟩ <;> rcases after with later | ⟨equal, follows⟩
  · exact .inl (Int.lt_trans earlier later)
  · exact .inl (equal ▸ earlier)
  · exact .inl (same ▸ later)
  · exact .inr ⟨same.trans equal, String.le_trans ordered follows⟩

theorem upTo_antisymm {left right : InboxRow} (before : left.upTo right) (after : right.upTo left) :
    left.messageId = right.messageId := by
  rcases before with earlier | ⟨same, ordered⟩ <;> rcases after with later | ⟨equal, follows⟩
  · exact absurd later (Int.lt_asymm earlier)
  · exact absurd equal (Int.ne_of_gt earlier)
  · exact absurd same (Int.ne_of_gt later)
  · exact String.le_antisymm ordered follows

instance : Std.Total upTo := ⟨upTo_total⟩

instance : IsTrans InboxRow upTo := ⟨fun _ _ _ => upTo_trans⟩

theorem sort_filter {rows : List InboxRow} (unique : (rows.map messageId).Nodup)
    (keep : InboxRow → Bool) :
    (rows.filter keep).insertionSort upTo = (rows.insertionSort upTo).filter keep := by
  refine List.Perm.eq_of_pairwise ?_ (List.pairwise_insertionSort _ _)
    ((List.pairwise_insertionSort upTo rows).filter _)
    ((List.perm_insertionSort _ _).trans ((List.perm_insertionSort _ _).filter _).symm)
  intro left right leftMember rightMember before after
  have inside : left ∈ rows :=
    List.mem_of_mem_filter ((List.mem_insertionSort _).mp leftMember)
  have other : right ∈ rows :=
    (List.mem_insertionSort _).mp (List.mem_of_mem_filter rightMember)
  exact Table.key_unique unique inside other (upTo_antisymm before after)

end InboxRow

namespace Db

variable {db middle later : Db} {processId : Nat}

structure Posted (db : Db) : Prop where
  unique : (db.delivery.inbox.map InboxRow.messageId).Nodup
  receipts : ∀ message ∈ db.delivery.inbox, message.signalType = "payment.receipt"

def unread (db : Db) (processId : Nat) : List InboxRow :=
  (db.delivery.inbox.filter fun row =>
    row.processId = processId ∧ row.state = .received).insertionSort InboxRow.upTo

theorem mem_unread {message : InboxRow} : message ∈ db.unread processId ↔
    message ∈ db.delivery.inbox ∧ message.processId = processId ∧ message.state = .received := by
  rw [unread, List.mem_insertionSort, List.mem_filter, decide_eq_true_eq]

theorem receivedMessage?_receipt (posted : db.Posted) :
    db.receivedMessage? processId (some "payment.receipt") = (db.unread processId).head? := by
  have same : (db.delivery.inbox.filter fun row => row.processId = processId ∧
      some row.signalType = some "payment.receipt" ∧ row.state = .received) =
      db.delivery.inbox.filter fun row => row.processId = processId ∧ row.state = .received := by
    refine List.filter_congr fun row member => ?_
    simp [posted.receipts row member]
  rw [receivedMessage?, same, unread]
  refine Table.first_eq_head (fun left right => ?_) _
  simp only [InboxRow.upTo, decide_eq_false_iff_not, not_or, not_and, not_lt]
  constructor
  · rintro (earlier | ⟨same, ordered⟩)
    · exact ⟨Int.le_of_lt earlier, fun equal => absurd equal (Int.ne_of_gt earlier)⟩
    · exact ⟨Int.le_of_eq same, fun _ => ordered⟩
  · rintro ⟨upTo, ordered⟩
    rcases Int.lt_or_eq_of_le upTo with earlier | same
    · exact .inl earlier
    · exact .inr ⟨same, ordered same.symm⟩

theorem receivedMessage?_other (posted : db.Posted) {signalType : Option String}
    (other : signalType ≠ some "payment.receipt") :
    db.receivedMessage? processId signalType = none := by
  rw [receivedMessage?, Table.first_eq_none, List.filter_eq_nil_iff]
  intro row member
  simp [posted.receipts row member, Ne.symm other]

theorem unread_nodup (posted : db.Posted) :
    ((db.unread processId).map InboxRow.messageId).Nodup := by
  have sorted := (List.perm_insertionSort InboxRow.upTo
    (db.delivery.inbox.filter fun row => row.processId = processId ∧ row.state = .received)).map
      InboxRow.messageId
  exact sorted.nodup_iff.mpr (posted.unique.sublist (List.filter_sublist.map _))

theorem unread_markApplied (posted : db.Posted) (messageId : String) :
    (db.markApplied messageId).unread processId =
      (db.unread processId).filter fun row => row.messageId ≠ messageId := by
  have left : ((db.markApplied messageId).delivery.inbox.filter fun row =>
      row.processId = processId ∧ row.state = .received) =
      (db.delivery.inbox.filter fun row => row.processId = processId ∧ row.state = .received).filter
        fun row => !decide (row.messageId = messageId) := by
    rw [markApplied_delivery_inbox]
    exact Table.filter_update_leave _ _ _ (fun _ => by simp) _
  rw [unread, left, InboxRow.sort_filter (posted.unique.sublist (List.filter_sublist.map _)), unread]
  congr 1
  funext row
  exact (decide_not ..).symm

theorem Posted.markApplied (posted : db.Posted) (messageId : String) :
    (db.markApplied messageId).Posted where
  unique := by
    rw [markApplied_delivery_inbox, Table.map_update]
    · exact posted.unique
    · exact fun _ => rfl
  receipts := by
    rw [markApplied_delivery_inbox]
    exact Table.forall_update posted.receipts fun _ _ kept => kept

/-- The first `count` messages of the process have been taken. -/
structure Read (processId count : Nat) (db later : Db) : Prop where
  posted : later.Posted
  unread : later.unread processId = (db.unread processId).drop count
  refused : ∀ message ∈ later.unread processId, message.refusedBy later = message.refusedBy db

theorem Read.trans {first second : Nat} (before : Read processId first db middle)
    (after : Read processId second middle later) : Read processId (first + second) db later where
  posted := after.posted
  unread := by rw [after.unread, before.unread, List.drop_drop]
  refused := by
    intro message member
    rw [after.refused message member, before.refused message]
    rw [after.unread] at member
    exact List.mem_of_mem_drop member

theorem Read.of_same (posted : db.Posted) (inbox : later.delivery.inbox = db.delivery.inbox)
    (digest : later.digest = db.digest)
    (signals : later.workflow.signals.map Signal.fixed = db.workflow.signals.map Signal.fixed) :
    Read processId 0 db later where
  posted := ⟨inbox ▸ posted.unique, inbox ▸ posted.receipts⟩
  unread := by rw [Db.unread, inbox, List.drop_zero, Db.unread]
  refused := fun message _ => Clear.refusedBy_congr message digest signals

theorem Read.markApplied {count : Nat} (read : Read processId count db later) (atMost : count ≤ 1)
    {message : InboxRow} {rest : List InboxRow} (unread : db.unread processId = message :: rest)
    (posted : db.Posted) : Read processId 1 db (later.markApplied message.messageId) where
  posted := read.posted.markApplied message.messageId
  unread := by
    have distinct := @unread_nodup _ processId posted
    rw [unread, List.map_cons, List.nodup_cons] at distinct
    have others : rest.filter (fun row => row.messageId ≠ message.messageId) = rest := by
      refine List.filter_eq_self.mpr fun row member => ?_
      have apart : row.messageId ≠ message.messageId :=
        fun same => distinct.1 (same ▸ List.mem_map_of_mem member)
      exact decide_eq_true apart
    rw [unread_markApplied read.posted, read.unread, unread]
    rcases Nat.le_one_iff_eq_zero_or_eq_one.mp atMost with rfl | rfl
    · rw [List.drop_zero, List.filter_cons_of_neg (by simp), others]
      rfl
    · exact others
  refused := by
    intro row member
    rw [unread_markApplied read.posted] at member
    rw [← read.refused row (List.mem_of_mem_filter member)]
    exact Clear.refusedBy_congr row rfl rfl

def Spares (db : Db) (processId count : Nat) : Prop :=
  ∀ message ∈ (db.unread processId).take count, message.refusedBy db = false

theorem Read.spares {first second : Nat} (read : Read processId first db middle) :
    db.Spares processId (first + second) ↔
      db.Spares processId first ∧ middle.Spares processId second := by
  have later : ∀ message ∈ (middle.unread processId).take second,
      message.refusedBy middle = message.refusedBy db :=
    fun message member => read.refused message (List.mem_of_mem_take member)
  rw [Spares, List.take_add, ← read.unread]
  constructor
  · intro spared
    refine ⟨fun message member => spared message (List.mem_append_left _ member), ?_⟩
    intro message member
    rw [later message member]
    exact spared message (List.mem_append_right _ member)
  · rintro ⟨spared, others⟩ message member
    rcases List.mem_append.mp member with before | after
    · exact spared message before
    · rw [← later message after]
      exact others message after

/-- The call takes the first `count` messages of the process, and fails where one is refused. -/
structure Reads (db : Db) (processId count : Nat) (result : Except SqlError Db) : Prop where
  returned : ∀ later, result = .ok later → db.Spares processId count ∧ Read processId count db later
  bare : db.Spares processId count → Bare result fun _ => True

namespace Reads

theorem of_read (read : Read processId 0 db later) : db.Reads processId 0 (.ok later) where
  returned := by
    rintro _ ⟨⟩
    exact ⟨fun message member => absurd member List.not_mem_nil, read⟩
  bare := fun _ => trivial

theorem strays {failure : SqlError} (bare : failure.strays true = true) {count : Nat} :
    db.Reads processId count (.error failure) where
  returned := by
    intro later returned
    cases returned
  bare := fun _ => bare

theorem after {count : Nat} {result : Except SqlError Db} (read : Read processId 0 db middle)
    (reads : middle.Reads processId count result) : db.Reads processId count result := by
  have spares : db.Spares processId count ↔ middle.Spares processId count := by
    have both := @Read.spares db middle processId 0 count read
    rw [Nat.zero_add] at both
    rw [both]
    exact and_iff_right fun message member => absurd member List.not_mem_nil
  refine ⟨?_, fun spared => reads.bare (spares.mp spared)⟩
  intro later returned
  obtain ⟨spared, further⟩ := reads.returned later returned
  have whole := read.trans further
  rw [Nat.zero_add] at whole
  exact ⟨spares.mpr spared, whole⟩

theorem bind {first second : Nat} {result : Except SqlError Db} {next : Db → Except SqlError Db}
    (before : db.Reads processId first result)
    (after : ∀ middle, result = .ok middle → Read processId first db middle →
      middle.Reads processId second (next middle)) :
    db.Reads processId (first + second) (result >>= next) where
  returned := by
    intro later returned
    obtain ⟨middle, reached, rest⟩ := Runs.bind_eq_ok.mp returned
    obtain ⟨spared, read⟩ := before.returned middle reached
    obtain ⟨others, continued⟩ := (after middle reached read).returned later rest
    exact ⟨read.spares.mpr ⟨spared, others⟩, read.trans continued⟩
  bare := by
    intro spared
    cases reached : result with
    | error failure =>
        have start := before.bare fun message member => spared message
          (List.take_subset_take_left _ (Nat.le_add_right first second) member)
        rw [reached] at start
        exact start
    | ok middle =>
        have known : result = .ok middle := reached
        obtain ⟨_, read⟩ := before.returned middle known
        exact (after middle known read).bare (read.spares.mp spared).2

end Reads

/-! How many messages that is. -/

def useSignal (db : Db) (signal : Signal) : Db :=
  db.updateSignal signal.messageId fun row => { row with status := .applied }

def waitsBehind (process : Process) (waits : Db → String → Nat) (db : Db)
    (definition : StepDefinition) : Nat :=
  match db.readySignal? process.id definition.params.signalType with
  | none => 0
  | some signal =>
      match db.config.transition? process.flowName process.flowVersion (some definition.stepKey)
          definition.params.outcome with
      | none => 0
      | some transition => waits (db.useSignal signal) transition.toStepKey

/-- The steps waiting for a receipt that the process enters at once, one signal after another. -/
def receiptWaits (process : Process) : Nat → Db → String → Nat
  | 0, _, _ => 0
  | fuel + 1, db, stepKey =>
      match db.config.stepDefinition? process.flowName process.flowVersion stepKey with
      | none => 0
      | some definition =>
          if definition.stepType = .waitSignal then
            waitsBehind process (receiptWaits process fuel) db definition +
              if definition.params.signalType = some "payment.receipt" then 1 else 0
          else 0

/-- The count depends on nothing else of the process and of the tables. -/
theorem receiptWaits_congr {process other : Process} (same : process.id = other.id ∧
    process.flowName = other.flowName ∧ process.flowVersion = other.flowVersion) :
    ∀ (fuel : Nat) {left right : Db}, left.config = right.config →
      left.workflow.signals = right.workflow.signals →
        (∀ stepKey, receiptWaits process fuel left stepKey = receiptWaits other fuel right stepKey) ∧
        ∀ definition, waitsBehind process (receiptWaits process fuel) left definition =
          waitsBehind other (receiptWaits other fuel) right definition := by
  have behind : ∀ {fuel : Nat}, (∀ {left right : Db}, left.config = right.config →
      left.workflow.signals = right.workflow.signals → ∀ stepKey,
        receiptWaits process fuel left stepKey = receiptWaits other fuel right stepKey) →
      ∀ {left right : Db}, left.config = right.config →
        left.workflow.signals = right.workflow.signals → ∀ definition,
          waitsBehind process (receiptWaits process fuel) left definition =
            waitsBehind other (receiptWaits other fuel) right definition := by
    intro fuel counts left right config signals definition
    rw [waitsBehind, waitsBehind, readySignal?, readySignal?, signals, config, same.1, same.2.1,
      same.2.2]
    split
    · rfl
    split
    · rfl
    rename_i signal _ _ transition _
    have used : (left.useSignal signal).workflow.signals =
        (right.useSignal signal).workflow.signals := by
      show Table.update _ _ left.workflow.signals = Table.update _ _ right.workflow.signals
      rw [signals]
    exact @counts (left.useSignal signal) (right.useSignal signal) config used _
  have counts : ∀ (fuel : Nat) {left right : Db}, left.config = right.config →
      left.workflow.signals = right.workflow.signals → ∀ stepKey,
        receiptWaits process fuel left stepKey = receiptWaits other fuel right stepKey := by
    intro fuel
    induction fuel with
    | zero => exact fun _ _ _ => rfl
    | succ fuel ih =>
        intro left right config signals stepKey
        simp only [receiptWaits, config, same.2.1, same.2.2, behind ih config signals]
  intro fuel left right config signals
  exact ⟨counts fuel config signals, behind (counts fuel) config signals⟩

theorem ready_useSignal {signalType : Option String} (signal : Signal) :
    ((db.useSignal signal).workflow.signals.filter fun row => row.processId = processId ∧
      some row.signalType = signalType ∧ row.status = .accepted) =
      (db.workflow.signals.filter fun row => row.processId = processId ∧
        some row.signalType = signalType ∧ row.status = .accepted).filter fun row =>
          !decide (row.messageId = signal.messageId) :=
  Table.filter_update_leave _ _ _ (fun _ => by simp) _

theorem readySignal?_useSignal {signalType : Option String} (signal : Signal)
    (none : db.readySignal? processId signalType = none) :
    (db.useSignal signal).readySignal? processId signalType = .none := by
  rw [readySignal?, Table.first_eq_none] at none ⊢
  rw [ready_useSignal, none]
  rfl

/-- Without a stored receipt signal the process stays at the first step that waits for one. -/
theorem receiptWaits_le_one (process : Process) : ∀ (fuel : Nat) {db : Db},
    db.readySignal? process.id (some "payment.receipt") = none →
      ∀ stepKey, receiptWaits process fuel db stepKey ≤ 1 := by
  intro fuel
  induction fuel with
  | zero => exact fun _ _ => Nat.zero_le 1
  | succ fuel ih =>
      intro db none stepKey
      rw [receiptWaits]
      split
      · exact Nat.zero_le 1
      rename_i definition _
      split
      · by_cases receipt : definition.params.signalType = some "payment.receipt"
        · rw [waitsBehind, receipt, none, if_pos rfl]
        · rw [if_neg receipt, Nat.add_zero, waitsBehind]
          split
          · exact Nat.zero_le 1
          split
          · exact Nat.zero_le 1
          · rename_i signal _ _ transition _
            exact ih (readySignal?_useSignal signal none) _
      · exact Nat.zero_le 1

end Db

theorem acceptSignal_refused {db : Db} (rows : db.Rows) {message : InboxRow}
    (refused : message.refusedBy db = true) (enter : EnterStep) :
    ∃ failure, acceptSignal enter db message.processId message.signalType message.messageId
      message.payload = .error failure := by
  have body : ∃ failure, acceptSignalBody enter db message.processId message.signalType
      message.messageId message.payload = .error failure ∧ failure ≠ .uniqueViolation := by
    unfold acceptSignalBody
    split
    · exact ⟨_, rfl, by simp⟩
    rename_i typed
    split
    · exact ⟨_, rfl, by simp⟩
    rename_i named
    split
    · exact ⟨_, rfl, by simp⟩
    split
    · exact ⟨_, rfl, by simp⟩
    have taken : ∃ row ∈ db.workflow.signals, row.messageId = message.messageId ∧
        sameSignal row message.processId message.signalType
          (db.digest message.payload.render) = false := by
      simpa [InboxRow.refusedBy, not_not.mp typed, named] using refused
    obtain ⟨row, member, same, differs⟩ := taken
    have known : db.workflow.signal? message.messageId = some row :=
      same ▸ Table.lookup_of_mem rows.messageIds member
    simp only [known, differs, Bool.false_eq_true, if_false]
    exact ⟨_, rfl, by simp⟩
  obtain ⟨failure, raised, other⟩ := body
  refine ⟨failure, ?_⟩
  rw [acceptSignal, raised]
  cases failure with
  | uniqueViolation => exact absurd rfl other
  | _ => rfl

section Recursion

variable {enter : EnterStep} {db : Db}

def EntersReading (enter : EnterStep) : Prop :=
  ∀ (db : Db) (process : Process) (stepKey : String) (fuel : Nat), db.Rows →
    db.workflow.process? process.id = some process →
    (∀ definition, db.config.stepDefinition? process.flowName process.flowVersion stepKey =
      some definition → (db.placeStep process.id definition).Sound) →
    db.Posted → db.unapplied.length < fuel →
      db.Reads process.id (Db.receiptWaits process fuel db stepKey) (enter db process.id stepKey)

theorem applyReadySignals_reads (enters : EntersReading enter) (sound : db.Sound)
    (posted : db.Posted) {process : Process} {step : StepInstance} {definition : StepDefinition}
    (owner : process ∈ db.workflow.processes) (member : step ∈ db.workflow.steps)
    (owns : step.processId = process.id) (waits : step.stepType = .waitSignal)
    (waiting : step.state = .waiting)
    (defined : db.config.stepDefinition? process.flowName process.flowVersion step.stepKey =
      some definition) {fuel : Nat} (enough : db.unapplied.length ≤ fuel) :
    db.Reads process.id (Db.waitsBehind process (Db.receiptWaits process fuel) db definition)
      (applyReadySignals enter db process.id step.id definition.params) := by
  obtain ⟨current, _, _, state, _⟩ := (sound.settled process.id).of_waiting
    (sound.rows.process? owner) (Db.mem_view_steps.mpr ⟨member, owns⟩) waiting (by rw [waits]; simp)
  have named := (stepDefinition?_key defined).2.2
  rw [applyReadySignals, Db.waitsBehind]
  cases ready : db.readySignal? process.id definition.params.signalType with
  | none => exact .of_read (.of_same posted rfl rfl rfl)
  | some signal =>
      have found : (db.consumeSignal process.id step.id definition.params.outcome
          signal).workflow.process? process.id = some process := sound.rows.process? owner
      have config : (db.consumeSignal process.id step.id definition.params.outcome signal).config =
          db.config := rfl
      have read : Db.Read process.id 0 db (db.consumeSignal process.id step.id
          definition.params.outcome signal) :=
        .of_same posted rfl rfl (congrArg Fixed.signals Db.fixed_consumeSignal)
      have facts := Table.first_mem ready
      simp only [List.mem_filter, decide_eq_true_eq] at facts
      simp only [advance, found, state waits, reduceCtorEq, or_self, if_false, config, current, named]
      cases leads : db.config.transition? process.flowName process.flowVersion (some step.stepKey)
          definition.params.outcome with
      | none => exact .strays rfl
      | some transition =>
          have count := (@Db.receiptWaits_congr process process ⟨rfl, rfl, rfl⟩ fuel
            (db.useSignal signal) (db.consumeSignal process.id step.id definition.params.outcome
              signal) rfl rfl).1 transition.toStepKey
          have fewer := @Db.unapplied_consumeSignal db process.id step.id definition.params.outcome
            signal facts.1 facts.2.2.2
          have entered := enters (db.consumeSignal process.id step.id definition.params.outcome
            signal) process transition.toStepKey fuel (Db.consumeSignal_rows sound.rows _ _ _ _) found
            (fun next placed => (EngineMove.signalled owner member owns waits waiting defined ready
              (by rw [current]; exact leads) placed).sound sound) read.posted (by omega)
          rw [← count] at entered
          exact .after read entered

/-- What follows the storing of a message takes no other one. -/
theorem afterStored_reads (enters : EntersReading enter) {stored : Db} {process : Process}
    (sound : stored.Sound) (config : stored.config = db.config) (posted : stored.Posted)
    (owner : process ∈ stored.workflow.processes)
    (alone : ∀ step ∈ (stored.view process.id).liveSteps, step.stepType = .waitSignal →
      ∀ definition, db.config.stepDefinition? process.flowName process.flowVersion step.stepKey =
        some definition → definition.params.signalType = some "payment.receipt" →
          ∀ signal, stored.readySignal? process.id (some "payment.receipt") = some signal →
            (stored.useSignal signal).readySignal? process.id (some "payment.receipt") = none) :
    ∃ count ≤ 1, stored.Reads process.id count
      (Except.map Prod.fst (afterStored enter db stored process "payment.receipt")) := by
  have idle : stored.Reads process.id 0 (.ok stored) := .of_read (.of_same posted rfl rfl rfl)
  simp only [afterStored]
  split
  · exact ⟨0, Nat.zero_le 1, idle⟩
  rename_i step stepFound
  obtain ⟨stepMember, owns, waits, waiting⟩ : step ∈ stored.workflow.steps ∧
      step.processId = process.id ∧ step.stepType = .waitSignal ∧ step.state = .waiting := by
    simpa using Table.first_mem stepFound
  split
  · exact ⟨0, Nat.zero_le 1, idle⟩
  rename_i definition defined
  split
  · rename_i receipt
    have reads := applyReadySignals_reads enters sound posted owner stepMember owns waits waiting
      (by rw [config]; exact defined) (Nat.le_refl _)
    refine ⟨Db.waitsBehind process (Db.receiptWaits process stored.unapplied.length) stored
      definition, ?_, ?_⟩
    · rw [Db.waitsBehind, receipt]
      split
      · exact Nat.zero_le 1
      rename_i signal ready
      split
      · exact Nat.zero_le 1
      · have live : step ∈ (stored.view process.id).liveSteps := by
          rw [((sound.settled process.id).of_waiting (sound.rows.process? owner)
            (Db.mem_view_steps.mpr ⟨stepMember, owns⟩) waiting (by rw [waits]; simp)).2.1]
          exact List.mem_cons_self
        exact Db.receiptWaits_le_one process _
          (alone step live waits definition defined receipt signal ready) _
    · cases applied : applyReadySignals enter stored process.id step.id definition.params with
      | ok later =>
          rw [applied] at reads
          exact reads
      | error failure =>
          rw [applied] at reads
          exact reads
  · exact ⟨0, Nat.zero_le 1, idle⟩

/-- The process does not wait for a receipt while a receipt signal of it is left unused, so the
one stored for the message is the only one. -/
theorem stored_alone {process : Process} (quiet : (db.view process.id).Quiet db.config)
    (found : db.workflow.process? process.id = some process) {messageId bodyHash : String}
    {step : StepInstance} (live : step ∈ (db.view process.id).liveSteps)
    (waits : step.stepType = .waitSignal) {definition : StepDefinition}
    (defined : db.config.stepDefinition? process.flowName process.flowVersion step.stepKey =
      some definition) (receipt : definition.params.signalType = some "payment.receipt")
    {signal : Signal}
    (ready : ((db.insertSignal messageId process.id "payment.receipt" bodyHash).insertEvent process.id
      none .signalAccepted).readySignal? process.id (some "payment.receipt") = some signal) :
    (((db.insertSignal messageId process.id "payment.receipt" bodyHash).insertEvent process.id none
      .signalAccepted).useSignal signal).readySignal? process.id (some "payment.receipt") = none := by
  have none := Db.readySignal?_eq_none.mpr (quiet process found step live waits definition defined)
  rw [receipt, Db.readySignal?, Table.first_eq_none] at none
  have only : (((db.insertSignal messageId process.id "payment.receipt" bodyHash).insertEvent
      process.id Option.none .signalAccepted).workflow.signals.filter fun row =>
        row.processId = process.id ∧ some row.signalType = some "payment.receipt" ∧
          row.status = .accepted) =
      [⟨messageId, process.id, "payment.receipt", bodyHash, .accepted, db.now⟩] := by
    rw [Db.insertEvent_workflow_signals, Db.insertSignal_workflow_signals, List.filter_append, none]
    simp
  rw [Db.readySignal?, only, Table.first_singleton] at ready
  obtain rfl := Option.some.inj ready
  rw [Db.readySignal?, Table.first_eq_none, Db.ready_useSignal, only]
  simp

/-- The signal stored for a message is the one that message asks for. -/
theorem stored_reads (posted : db.Posted) {processId : Nat} {message : InboxRow}
    (member : message ∈ db.delivery.inbox) (owns : message.processId = processId)
    (spared : message.refusedBy db = false) :
    Db.Read processId 0 db ((db.insertSignal message.messageId processId "payment.receipt"
      (db.digest message.payload.render)).insertEvent processId none .signalAccepted) := by
  refine ⟨⟨posted.unique, posted.receipts⟩, rfl, fun other otherMember => ?_⟩
  have inside := (Db.mem_unread.mp otherMember).1
  by_cases same : other.messageId = message.messageId
  · cases Table.key_unique posted.unique inside member same
    rw [spared]
    simp only [InboxRow.refusedBy, owns, posted.receipts message member] at spared ⊢
    simp_all [sameSignal]
  · simp [InboxRow.refusedBy, List.any_append, Ne.symm same]

theorem acceptSignal_reads (enters : EntersReading enter) (sound : db.Sound) {process : Process}
    (found : db.workflow.process? process.id = some process)
    (declared : declaresSignal db process "payment.receipt" = true) (posted : db.Posted)
    (quiet : (db.view process.id).Quiet db.config) {message : InboxRow} {rest : List InboxRow}
    (unread : db.unread process.id = message :: rest) (spared : message.refusedBy db = false) :
    ∃ count ≤ 1, (∀ accepted, acceptSignal enter db process.id "payment.receipt" message.messageId
        message.payload = .ok accepted → Db.Read process.id count db accepted.1) ∧
      Bare (acceptSignal enter db process.id "payment.receipt" message.messageId message.payload)
        fun _ => True := by
  have first : message ∈ db.unread process.id := unread ▸ List.mem_cons_self
  obtain ⟨member, owns, state⟩ := Db.mem_unread.mp first
  have taken := spared
  simp only [InboxRow.refusedBy, owns, posted.receipts message member, decide_eq_false_iff_not,
    not_or, Decidable.not_not, List.any_eq_true, decide_eq_true_eq, not_exists, not_and] at taken
  obtain ⟨wellFormed, named, agrees⟩ := taken
  have idle : ∀ accepted, Except.ok (db, SignalReply.duplicate) =
      (.ok accepted : Except SqlError (Db × SignalReply)) → Db.Read process.id 0 db accepted.1 := by
    rintro _ ⟨⟩
    exact .of_same posted rfl rfl rfl
  cases known : db.workflow.signal? message.messageId with
  | some existing =>
      obtain ⟨existingMember, same⟩ := Table.lookup_mem known
      rw [acceptSignal_known found declared wellFormed named known,
        if_pos (agrees existing existingMember same)]
      exact ⟨0, Nat.zero_le 1, idle, trivial⟩
  | none =>
      by_cases unused : (db.workflow.signals.any fun row => sameSignal row process.id
          "payment.receipt" (db.digest message.payload.render)) = true
      · rw [acceptSignal_repeated found declared wellFormed named known unused]
        exact ⟨0, Nat.zero_le 1, idle, trivial⟩
      rw [Bool.not_eq_true] at unused
      have owner := (Table.lookup_mem found).1
      have move := @EngineMove.stored db process _ _ (db.digest message.payload.render) owner declared
        known unused
      let stored := (db.insertSignal message.messageId process.id "payment.receipt"
        (db.digest message.payload.render)).insertEvent process.id none .signalAccepted
      have read : Db.Read process.id 0 db stored := stored_reads posted member owns spared
      obtain ⟨count, atMost, reads⟩ := @afterStored_reads enter db enters stored process
        (move.sound sound) rfl read.posted owner fun step live waits definition defined receipt
          signal ready => stored_alone quiet found live waits defined receipt ready
      have spares : stored.Spares process.id count := by
        intro other otherMember
        have short := List.take_subset_take_left (stored.unread process.id) atMost otherMember
        rw [read.unread, List.drop_zero, unread, List.take_succ_cons, List.take_zero,
          List.mem_singleton] at short
        subst short
        rw [read.refused other (read.unread ▸ first), spared]
      have bare := reads.bare spares
      rw [acceptSignal_new found declared wellFormed named known unused]
      refine ⟨count, atMost, ?_⟩
      cases after : afterStored enter db stored process "payment.receipt" with
      | error failure =>
          rw [after] at bare
          refine ⟨?_, ?_⟩
          · intro accepted returned
            cases failure <;> cases returned
          · cases failure <;> exact bare
      | ok accepted =>
          refine ⟨?_, trivial⟩
          rintro _ ⟨⟩
          have whole := read.trans (reads.returned accepted.1 (by rw [after]; rfl)).2
          rw [Nat.zero_add] at whole
          exact whole

theorem applyInboxForProcess_reads (enters : EntersReading enter) (sound : db.Sound)
    {process : Process} (found : db.workflow.process? process.id = some process)
    (declared : declaresSignal db process "payment.receipt" = true) (posted : db.Posted)
    (quiet : (db.view process.id).Quiet db.config) :
    db.Reads process.id 1 (applyInboxForProcess enter db process.id (some "payment.receipt")) := by
  rw [applyInboxForProcess, Db.receivedMessage?_receipt posted]
  cases unread : db.unread process.id with
  | nil =>
      refine ⟨?_, fun _ => trivial⟩
      rintro _ ⟨⟩
      refine ⟨fun message member => ?_, posted, by rw [unread]; rfl, fun _ _ => rfl⟩
      rw [unread] at member
      cases member
  | cons message rest =>
      have first : message ∈ db.unread process.id := unread ▸ List.mem_cons_self
      obtain ⟨member, owns, state⟩ := Db.mem_unread.mp first
      have type := posted.receipts message member
      have spares : db.Spares process.id 1 ↔ message.refusedBy db = false := by
        rw [Db.Spares, unread]
        simp
      simp only [List.head?_cons, type]
      by_cases refused : message.refusedBy db = true
      · obtain ⟨failure, raised⟩ := acceptSignal_refused sound.rows refused enter
        rw [owns, type] at raised
        rw [raised]
        refine ⟨?_, fun spared => absurd (spares.mp spared) (by simp [refused])⟩
        intro later returned
        cases returned
      · rw [Bool.not_eq_true] at refused
        obtain ⟨count, atMost, read, bare⟩ := acceptSignal_reads enters sound found declared posted
          quiet unread refused
        constructor
        · intro later returned
          obtain ⟨⟨accepted, reply⟩, reached, rest⟩ := Runs.bind_eq_ok.mp returned
          cases rest
          exact ⟨spares.mpr refused, (read _ reached).markApplied atMost unread posted⟩
        · intro _
          exact bare.bind fun accepted _ _ => trivial

theorem enterWaiting_reads (enters : Enters enter) (inner : EntersReading enter)
    (sound : db.Sound) (posted : db.Posted) {process : Process} {step : StepInstance}
    {definition : StepDefinition} (owner : process ∈ db.workflow.processes)
    (member : step ∈ db.workflow.steps) (owns : step.processId = process.id)
    (waits : step.stepType = .waitSignal) (kind : definition.stepType = .waitSignal)
    (waiting : step.state = .waiting)
    (defined : db.config.stepDefinition? process.flowName process.flowVersion step.stepKey =
      some definition) {fuel : Nat} (enough : db.unapplied.length ≤ fuel) :
    db.Reads process.id (Db.waitsBehind process (Db.receiptWaits process fuel) db definition +
      if definition.params.signalType = some "payment.receipt" then 1 else 0) (do
        let ready ← applyReadySignals enter db process.id step.id definition.params
        applyInboxForProcess enter ready process.id definition.params.signalType) := by
  refine Db.Reads.bind (applyReadySignals_reads inner sound posted owner member owns waits waiting
    defined enough) ?_
  intro ready returned read
  have reaches := applyReadySignals_reaches enters sound owner member owns waits waiting defined
    returned
  have readySound := reaches.sound sound
  obtain ⟨after, afterMember, same⟩ := (reaches.moves.kept sound).process owner
  obtain ⟨sameId, sameFlow, sameVersion, _⟩ := Process.fixed_columns same
  have afterDefined : ready.config.stepDefinition? after.flowName after.flowVersion step.stepKey =
      some definition := by
    rw [reaches.moves.config_eq, sameFlow, sameVersion]
    exact defined
  split
  · rename_i receipt
    have quiet := reaches.quiet
    rw [receipt]
    rw [← sameId] at quiet ⊢
    exact applyInboxForProcess_reads inner readySound (readySound.rows.process? afterMember)
      (declares_of_definition afterDefined kind receipt) read.posted quiet
  · rename_i other
    rw [applyInboxForProcess, Db.receivedMessage?_other read.posted other]
    exact .of_read (.of_same read.posted rfl rfl rfl)

theorem enterStepBody_reads (enters : Enters enter) (inner : EntersReading enter) :
    EntersReading (enterStepBody enter) := by
  intro db process stepKey fuel rows found sound posted enough
  obtain ⟨fuel, rfl⟩ := Nat.exists_eq_succ_of_ne_zero (Nat.ne_of_gt (Nat.zero_lt_of_lt enough))
  simp only [enterStepBody, found, Db.receiptWaits]
  cases defined : db.config.stepDefinition? process.flowName process.flowVersion stepKey with
  | none => exact .strays rfl
  | some definition =>
      have read : Db.Read process.id 0 db (db.placeStep process.id definition) :=
        .of_same posted (by rw [Db.placeStep_delivery]) (by rw [Db.placeStep_digest])
          (by rw [Db.placeStep_signals])
      by_cases waits : definition.stepType = .waitSignal
      · have placedOwner : Db.placedProcess definition process ∈
            (db.placeStep process.id definition).workflow.processes := by
          rw [Db.placeStep_processes, Table.mem_update]
          exact ⟨process, (Table.lookup_mem found).1, by simp⟩
        have placedMember : db.placedStep process.id definition ∈
            (db.placeStep process.id definition).workflow.steps := by
          rw [Db.placeStep_steps _ _ _ rows.stepBound]
          simp
        have waiting : (db.placedStep process.id definition).state = .waiting := by
          simp [Db.placedStep, waits, StepType.entryState]
        have placedDefined : (db.placeStep process.id definition).config.stepDefinition?
            (Db.placedProcess definition process).flowName
            (Db.placedProcess definition process).flowVersion
            (db.placedStep process.id definition).stepKey = some definition := by
          rw [Db.placeStep_config]
          show db.config.stepDefinition? _ _ definition.stepKey = _
          rw [(stepDefinition?_key defined).2.2]
          exact defined
        have unapplied : (db.placeStep process.id definition).unapplied = db.unapplied := by
          simp only [Db.unapplied, Db.placeStep_signals]
        have count := (@Db.receiptWaits_congr (Db.placedProcess definition process) process
          ⟨rfl, rfl, rfl⟩ fuel (db.placeStep process.id definition) db (Db.placeStep_config ..)
            (Db.placeStep_signals ..)).2 definition
        have reads := @enterWaiting_reads enter (db.placeStep process.id definition) enters inner
          (sound definition defined) read.posted (Db.placedProcess definition process)
            (db.placedStep process.id definition) definition placedOwner placedMember rfl waits waits
              waiting placedDefined fuel (by rw [unapplied]; omega)
        rw [count] at reads
        simp only [waits, if_true]
        exact .after read reads
      · simp only [waits, if_false]
        exact .of_read read

theorem enterStep_reads : ∀ depth, EntersReading (enterStep depth) := by
  intro depth
  induction depth with
  | zero =>
      intro db process stepKey fuel _ _ _ _ _
      exact .strays rfl
  | succ depth ih => exact enterStepBody_reads (enterStep_enters depth) ih

end Recursion

theorem EngineMove.receipts {processId : Nat} {db later : Db} (move : EngineMove processId db later)
    (receipts : ∀ message ∈ db.delivery.inbox, message.signalType = "payment.receipt") :
    ∀ message ∈ later.delivery.inbox, message.signalType = "payment.receipt" := by
  cases move with
  | applied =>
      rw [Db.markApplied_delivery_inbox]
      exact Table.forall_update receipts fun _ _ kept => kept
  | started | signalled | finished | decided =>
      rw [Db.placeStep_delivery]
      exact receipts
  | _ => exact receipts

theorem reached_posted (config : Config) (clock : Nat → Time) (digest : String → String)
    (calls : List Call) : (reached config clock digest calls).db.Posted := by
  refine ⟨reached_inboxIds config clock digest calls, ?_⟩
  refine SystemMoves.invariant (fun db => ∀ message ∈ db.delivery.inbox,
    message.signalType = "payment.receipt") ?_ ?_ ?_ (run_moves calls (fresh config clock digest)
      initial_steady) initial_steady fun message member => absurd member List.not_mem_nil
  · intro processId before after _ _ receipts move
    exact move.receipts receipts
  · intro before after _ _ receipts move
    cases move with
    | @received external messageId bodyHash processId operation outcome body _ _ _ freshMessage =>
        have inserted : ∀ other : Db, (other.confirmDelivery external.id).delivery.inbox =
            other.delivery.inbox := fun _ => rfl
        rw [inserted, Db.insertReceipt_delivery_inbox]
        intro message member
        rcases List.mem_append.mp member with old | new
        · exact receipts message old
        · rw [List.mem_singleton.mp new]
    | _ => exact receipts
  · intro target operation before after _ _ receipts move
    cases move
    exact receipts

end PaymentWorkflow
