import PaymentWorkflow.FaultProofs

/-!
The recursion through `_enter_step` ends on every database, whatever the maps, signals and
messages in it: a call makes at most two further calls, each on a database with less to spend.
-/

namespace PaymentWorkflow

structure Entry where
  db : Db
  processId : Nat
  stepKey : String

def EnterStep.at (enter : EnterStep) (entry : Entry) : Except SqlError Db :=
  enter entry.db entry.processId entry.stepKey

structure Returned where
  entry : Entry
  result : Except SqlError Db
  calls : Nat

/--
The recursive equation of `_enter_step`, unfolded as far as a call needs: its body returns the
result from those of the calls it makes, and each of them has returned.
-/
inductive Returns : Returned → Prop
  | body (entry : Entry) (result : Except SqlError Db) (inner : List Returned)
      (returned : ∀ call ∈ inner, Returns call)
      (determined : ∀ enter : EnterStep, (∀ call ∈ inner, enter.at call.entry = call.result) →
        (enterStepBody enter).at entry = result) :
      Returns ⟨entry, result, (inner.map Returned.calls).sum + 1⟩

/--
The result depends on `enter` at so many calls at most, each on a database below the depth; it
is no overrun of the recursion.
-/
def Spends {Value : Type} (depth most : Nat) (enter : EnterStep)
    (run : EnterStep → Except SqlError Value) (kept : Value → Prop) : Prop :=
  Within false (run enter) kept ∧
    ∃ entries : List Entry, entries.length ≤ most ∧ (∀ entry ∈ entries, entry.db.unspent < depth) ∧
      ∀ other : EnterStep, (∀ entry ∈ entries, other.at entry = enter.at entry) →
        run other = run enter

namespace Spends

variable {Value Result : Type} {depth most more : Nat} {enter : EnterStep}
  {run : EnterStep → Except SqlError Value} {before kept : Value → Prop}

theorem of_const {result : Except SqlError Value} (within : Within false result kept) :
    Spends depth most enter (fun _ => result) kept :=
  ⟨within, [], Nat.zero_le _, nofun, fun _ _ => rfl⟩

theorem mono (spends : Spends depth most enter run before)
    (weaker : ∀ value, before value → kept value) : Spends depth most enter run kept :=
  ⟨spends.1.mono weaker, spends.2⟩

theorem bind {next : EnterStep → Value → Except SqlError Result} {after : Result → Prop}
    (first : Spends depth most enter run before)
    (rest : ∀ value, before value → Spends depth more enter (fun other => next other value) after) :
    Spends depth (most + more) enter (fun other => run other >>= next other) after := by
  obtain ⟨within, entries, few, below, determined⟩ := first
  cases returned : run enter with
  | error failure =>
      rw [returned] at within
      refine ⟨?_, entries, by omega, below, fun other agrees => ?_⟩
      · show Within false (run enter >>= next enter) after
        rw [returned]
        exact within
      · simp only [determined other agrees, returned]
        rfl
  | ok value =>
      rw [returned] at within
      obtain ⟨later, others, fewer, lower, decided⟩ := rest value within
      refine ⟨?_, entries ++ others, ?_, ?_, fun other agrees => ?_⟩
      · show Within false (run enter >>= next enter) after
        rw [returned]
        exact later
      · rw [List.length_append]
        omega
      · intro entry member
        exact (List.mem_append.mp member).elim (below entry) (lower entry)
      · simp only [determined other fun entry member => agrees entry (List.mem_append_left _ member),
          returned]
        exact decided other fun entry member => agrees entry (List.mem_append_right _ member)

end Spends

section Functions

variable {depth : Nat} {enter : EnterStep} {db : Db}

def Bounded (depth : Nat) (enter : EnterStep) : Prop :=
  ∀ entry : Entry, entry.db.unspent < depth →
    Within false (enter.at entry) fun later => later.unspent ≤ entry.db.unspent

theorem advance_spends (bounded : Bounded depth enter) (below : db.unspent < depth)
    (processId : Nat) (outcome : Option String) :
    Spends depth 1 enter (fun other => advance other db processId outcome) fun later =>
      later.unspent ≤ db.unspent := by
  simp only [advance]
  split
  · exact .of_const rfl
  split
  · exact .of_const (Nat.le_refl _)
  split
  · exact .of_const rfl
  rename_i transition _
  refine ⟨bounded ⟨db, processId, transition.toStepKey⟩ below, [⟨db, processId, transition.toStepKey⟩],
    Nat.le_refl _, ?_, fun other agrees => agrees _ List.mem_cons_self⟩
  intro entry member
  rw [List.mem_singleton.mp member]
  exact below

theorem applyReadySignals_spends (bounded : Bounded depth enter) (below : db.unspent ≤ depth)
    (processId stepInstanceId : Nat) (params : StepParams) :
    Spends depth 1 enter
      (fun other => applyReadySignals other db processId stepInstanceId params) fun later =>
        later.unspent ≤ db.unspent := by
  simp only [applyReadySignals]
  split
  · exact .of_const (Nat.le_refl _)
  rename_i signal ready
  obtain ⟨member, _, _, status⟩ := Db.readySignal?_mem ready
  have fewer := @Db.unspent_consumeSignal db processId stepInstanceId params.outcome signal member
    status
  refine (advance_spends bounded (by omega) processId params.outcome).mono fun later spent => ?_
  omega

/-- The measure may grow by the signal a new message brings, up to the depth. -/
theorem acceptSignalBody_spends (bounded : Bounded depth enter) {processId bound : Nat}
    {signalType messageId : String} {payload : Json} (within : bound ≤ depth)
    (before : db.unspent ≤ bound)
    (stored : db.workflow.signal? messageId = none →
      (db.insertSignal messageId processId signalType (db.digest payload.render)).unspent ≤ bound) :
    Spends depth 1 enter
      (fun other => acceptSignalBody other db processId signalType messageId payload) fun accepted =>
        accepted.1.unspent ≤ bound := by
  simp only [acceptSignalBody]
  split
  · exact .of_const rfl
  split
  · exact .of_const rfl
  split
  · exact .of_const rfl
  split
  · exact .of_const rfl
  split
  · split
    · exact .of_const before
    · exact .of_const rfl
  rename_i fresh
  split
  · exact .of_const rfl
  have storedBound := stored fresh
  split
  · exact .of_const storedBound
  split
  · exact .of_const storedBound
  rename_i step _ _ definition _
  split
  · show Spends depth (1 + 0) enter _ _
    refine Spends.bind (applyReadySignals_spends bounded ?_ processId step.id definition.params)
      fun applied fewer => .of_const ?_
    · exact Nat.le_trans storedBound within
    · exact Nat.le_trans fewer storedBound
  · exact .of_const storedBound

theorem acceptSignal_spends (bounded : Bounded depth enter) {processId bound : Nat}
    {signalType messageId : String} {payload : Json} (within : bound ≤ depth)
    (before : db.unspent ≤ bound)
    (stored : db.workflow.signal? messageId = none →
      (db.insertSignal messageId processId signalType (db.digest payload.render)).unspent ≤ bound) :
    Spends depth 1 enter
      (fun other => acceptSignal other db processId signalType messageId payload) fun accepted =>
        accepted.1.unspent ≤ bound := by
  obtain ⟨kept, entries, few, below, determined⟩ :=
    @acceptSignalBody_spends depth enter db bounded processId bound signalType messageId payload
      within before stored
  refine ⟨?_, entries, few, below, fun other agrees => ?_⟩
  · simp only [acceptSignal]
    split
    · split
      · split
        · exact before
        · rfl
      · split
        · exact before
        · rfl
    · exact kept
  · simp only [acceptSignal, determined other agrees]

theorem applyInboxForProcess_spends (bounded : Bounded depth enter) (below : db.unspent ≤ depth)
    (processId : Nat) (signalType : Option String) :
    Spends depth 1 enter (fun other => applyInboxForProcess other db processId signalType)
      fun later => later.unspent ≤ db.unspent := by
  simp only [applyInboxForProcess]
  split
  · exact .of_const (Nat.le_refl _)
  rename_i message received
  have chosen := Table.first_mem received
  simp only [List.mem_filter, decide_eq_true_eq] at chosen
  show Spends depth (1 + 0) enter _ _
  refine Spends.bind (acceptSignal_spends bounded below (Nat.le_refl _) fun fresh =>
    Db.unspent_insertSignal_message chosen.1 chosen.2.2.2 fresh) fun accepted fewer => .of_const ?_
  exact Nat.le_trans (Db.unspent_markApplied _) fewer

theorem enterStepBody_spends (bounded : Bounded depth enter) (below : db.unspent ≤ depth)
    (processId : Nat) (stepKey : String) :
    Spends depth 2 enter (fun other => enterStepBody other db processId stepKey) fun later =>
      later.unspent ≤ db.unspent := by
  simp only [enterStepBody]
  split
  · exact .of_const rfl
  split
  · exact .of_const rfl
  rename_i definition _
  have same := @Db.unspent_placeStep db processId definition
  split
  · show Spends depth (1 + 1) enter _ _
    refine Spends.bind (applyReadySignals_spends bounded ?_ processId db.nextId definition.params)
      fun ready fewer => ?_
    · omega
    · refine (applyInboxForProcess_spends bounded ?_ processId definition.params.signalType).mono
        fun later spent => ?_
      · omega
      · omega
  · exact .of_const (Nat.le_of_eq same)

end Functions

theorem enterStep_bounded (depth : Nat) : Bounded depth (enterStep depth) := by
  induction depth with
  | zero => exact fun entry below => absurd below (Nat.not_lt_zero _)
  | succ depth ih =>
      intro entry below
      exact (enterStepBody_spends ih (Nat.le_of_lt_succ below) entry.processId entry.stepKey).1

theorem returned_list {enter : EnterStep} {most : Nat} : ∀ {entries : List Entry},
    (∀ entry ∈ entries, ∃ calls, Returns ⟨entry, enter.at entry, calls⟩ ∧ calls ≤ most) →
      ∃ inner : List Returned, inner.map Returned.entry = entries ∧
        (∀ call ∈ inner, Returns call ∧ enter.at call.entry = call.result) ∧
          (inner.map Returned.calls).sum ≤ entries.length * most := by
  intro entries
  induction entries with
  | nil => exact fun _ => ⟨[], rfl, nofun, by simp⟩
  | cons entry rest ih =>
      intro each
      obtain ⟨calls, returns, few⟩ := each entry List.mem_cons_self
      obtain ⟨inner, listed, returned, total⟩ :=
        ih fun other member => each other (List.mem_cons_of_mem _ member)
      refine ⟨⟨entry, enter.at entry, calls⟩ :: inner, by rw [List.map_cons, listed], ?_, ?_⟩
      · intro call member
        rcases List.mem_cons.mp member with rfl | later
        · exact ⟨returns, rfl⟩
        · exact returned call later
      · simp only [List.map_cons, List.sum_cons, List.length_cons, Nat.succ_mul]
        omega

theorem enterStep_returns : ∀ (depth : Nat) (entry : Entry), entry.db.unspent < depth →
    ∃ calls, Returns ⟨entry, (enterStep depth).at entry, calls⟩ ∧ calls ≤ 2 ^ depth - 1 := by
  intro depth
  induction depth with
  | zero => exact fun entry below => absurd below (Nat.not_lt_zero _)
  | succ depth ih =>
      intro entry below
      obtain ⟨_, entries, few, lower, determined⟩ := enterStepBody_spends (enterStep_bounded depth)
        (Nat.le_of_lt_succ below) entry.processId entry.stepKey
      obtain ⟨inner, listed, returned, total⟩ :=
        returned_list fun other member => ih other (lower other member)
      refine ⟨_, .body entry _ inner (fun call member => (returned call member).1)
        fun other agrees => determined other fun called member => ?_, ?_⟩
      · rw [← listed] at member
        obtain ⟨call, inside, rfl⟩ := List.mem_map.mp member
        exact (agrees call inside).trans (returned call inside).2.symm
      · have double : entries.length * (2 ^ depth - 1) ≤ 2 * (2 ^ depth - 1) :=
          Nat.mul_le_mul_right _ few
        have positive : 0 < 2 ^ depth := Nat.two_pow_pos depth
        rw [Nat.pow_succ]
        omega

/-! The functions that enter steps. -/

abbrev Uncut {Value : Type} (result : Except SqlError Value) : Prop :=
  Within false result fun _ => True

theorem Uncut.ne {Value : Type} {result : Except SqlError Value} (uncut : Uncut result) :
    result ≠ .error .recursionLimit := by
  rintro rfl
  cases uncut

section Calls

variable (db : Db)

theorem advance_uncut (processId : Nat) (outcome : Option String) :
    Uncut (advance (enterStep (recursionBound db)) db processId outcome) :=
  (advance_spends (enterStep_bounded _) db.unspent_lt_recursionBound processId outcome).1.mono
    fun _ _ => trivial

theorem startProcess_uncut (flowName businessKey : String) (data : Json) :
    Uncut (startProcess db flowName businessKey data) := by
  have body : Uncut (startProcessBody db flowName businessKey data) := by
    simp only [startProcessBody]
    split
    · rfl
    split
    · rfl
    split
    · split
      · trivial
      · rfl
    split
    · rfl
    rename_i version _
    refine Within.bind (enterStep_bounded _ ⟨_, db.nextId, version.map.startStep⟩
      (Db.unspent_lt_recursionBound _)) fun entered _ _ => ?_
    split
    · trivial
    · rfl
  simp only [startProcess]
  split
  · split
    · split
      · trivial
      · rfl
    · rfl
  · exact body

theorem finishJob_uncut (jobId : Nat) (owner : Option String) (leaseVersion : Option Int)
    (outcome : Option String) : Uncut (finishJob db jobId owner leaseVersion outcome) := by
  simp only [finishJob]
  split
  · rfl
  split
  · rfl
  split
  · split
    · rfl
    · exact Within.bind (advance_uncut _ _ _) fun _ _ _ => trivial
  · rfl

theorem manualV1_uncut (principal : Option String) (payload : Json) :
    Uncut (manualV1 db principal payload) := by
  have argument : ∀ key, Uncut (uuidArgument payload key) := by
    intro key
    simp only [uuidArgument]
    split
    · trivial
    split
    · rfl
    · trivial
  have body : ∀ processId stepInstanceId decision reason,
      Uncut (manualBody db principal processId stepInstanceId decision reason) := by
    intro processId stepInstanceId decision reason
    simp only [manualBody]
    split
    · trivial
    split
    · trivial
    split
    · trivial
    split
    · rfl
    split
    · rfl
    split
    · rfl
    · exact Within.bind (advance_uncut _ _ _) fun _ _ _ => trivial
  refine Within.bind (argument "processId") fun processId _ _ => ?_
  refine Within.bind (argument "stepInstanceId") fun stepInstanceId _ _ => ?_
  split
  · trivial
  · exact body _ _ _ _

theorem acceptSignalCall_uncut (processId : Nat) (signalType messageId : String) (payload : Json) :
    Uncut (acceptSignalCall db processId signalType messageId payload) := by
  have below := db.unspent_lt_recursionBound
  refine (acceptSignal_spends (enterStep_bounded _) (Nat.le_refl (recursionBound db))
    (Nat.le_of_lt below) fun _ => ?_).1.mono fun _ _ => trivial
  exact Nat.le_trans Db.unspent_insertSignal below

/--
Whatever is published, signalled and received: `_enter_step` returns after finitely many calls
of itself, and no call that enters a step is cut off.
-/
theorem step_entry_terminates :
    (∀ processId stepKey, ∃ calls, calls < 2 ^ recursionBound db ∧
      Returns ⟨⟨db, processId, stepKey⟩, enterStep (recursionBound db) db processId stepKey, calls⟩) ∧
    (∀ flowName businessKey data,
      startProcess db flowName businessKey data ≠ .error .recursionLimit) ∧
    (∀ jobId owner leaseVersion outcome,
      finishJob db jobId owner leaseVersion outcome ≠ .error .recursionLimit) ∧
    (∀ principal payload, manualV1 db principal payload ≠ .error .recursionLimit) ∧
    ∀ processId signalType messageId payload,
      acceptSignalCall db processId signalType messageId payload ≠ .error .recursionLimit := by
  refine ⟨fun processId stepKey => ?_, fun flowName businessKey data => ?_,
    fun jobId owner leaseVersion outcome => ?_, fun principal payload => ?_,
    fun processId signalType messageId payload => ?_⟩
  · obtain ⟨calls, returns, few⟩ := enterStep_returns (recursionBound db) ⟨db, processId, stepKey⟩
      db.unspent_lt_recursionBound
    have positive := Nat.two_pow_pos (recursionBound db)
    exact ⟨calls, by omega, returns⟩
  · exact (startProcess_uncut db flowName businessKey data).ne
  · exact (finishJob_uncut db jobId owner leaseVersion outcome).ne
  · exact (manualV1_uncut db principal payload).ne
  · exact (acceptSignalCall_uncut db processId signalType messageId payload).ne

end Calls

end PaymentWorkflow
