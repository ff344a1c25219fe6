import PaymentWorkflow.EngineRows
import PaymentWorkflow.Runs

/-!
What holds of every write of the engine holds of its recursion, whatever the tables hold: a
relation that each write respects relates what a call is given and what it returns.
-/

namespace PaymentWorkflow

/-- A preorder that the writes below `_enter_step` respect. -/
structure Written (relates : Db → Db → Prop) : Prop where
  refl : ∀ db, relates db db
  trans : ∀ {first second third}, relates first second → relates second third →
    relates first third
  placed : ∀ (db : Db) (processId : Nat) (definition : StepDefinition),
    relates db (db.placeStep processId definition)
  consumed : ∀ (db : Db) (processId stepInstanceId : Nat) (outcome : Option String)
    (signal : Signal), relates db (db.consumeSignal processId stepInstanceId outcome signal)
  stored : ∀ (db : Db) (processId : Nat) (signalType messageId bodyHash : String),
    relates db ((db.insertSignal messageId processId signalType bodyHash).insertEvent processId none
      .signalAccepted)
  applied : ∀ (db : Db) (messageId : String), relates db (db.markApplied messageId)

def Relates (relates : Db → Db → Prop) (enter : EnterStep) : Prop :=
  ∀ (db : Db) (processId : Nat) (stepKey : String) (later : Db),
    enter db processId stepKey = .ok later → relates db later

namespace Written

variable {relates : Db → Db → Prop} {enter : EnterStep} {db later : Db} {processId : Nat}

theorem advance (written : Written relates) (entered : Relates relates enter)
    {outcome : Option String} (returned : advance enter db processId outcome = .ok later) :
    relates db later := by
  simp only [PaymentWorkflow.advance] at returned
  split at returned
  · simp at returned
  split at returned
  · cases returned
    exact written.refl _
  split at returned
  · simp at returned
  · exact entered _ _ _ _ returned

theorem applyReadySignals (written : Written relates) (entered : Relates relates enter)
    {stepInstanceId : Nat} {params : StepParams}
    (returned : applyReadySignals enter db processId stepInstanceId params = .ok later) :
    relates db later := by
  simp only [PaymentWorkflow.applyReadySignals] at returned
  split at returned
  · cases returned
    exact written.refl _
  · exact written.trans (written.consumed ..) (written.advance entered returned)

theorem acceptSignalBody (written : Written relates) (entered : Relates relates enter)
    {signalType messageId : String} {payload : Json} {reply : SignalReply}
    (returned : acceptSignalBody enter db processId signalType messageId payload =
      .ok (later, reply)) : relates db later := by
  simp only [PaymentWorkflow.acceptSignalBody] at returned
  split at returned
  · simp at returned
  split at returned
  · simp at returned
  split at returned
  · simp at returned
  split at returned
  · simp at returned
  split at returned
  · split at returned
    · cases returned
      exact written.refl _
    · simp at returned
  split at returned
  · simp at returned
  split at returned
  · cases returned
    exact written.stored ..
  split at returned
  · cases returned
    exact written.stored ..
  split at returned
  · obtain ⟨applied, consumed, rest⟩ := Runs.bind_eq_ok.mp returned
    cases rest
    exact written.trans (written.stored ..) (written.applyReadySignals entered consumed)
  · cases returned
    exact written.stored ..

theorem acceptSignal (written : Written relates) (entered : Relates relates enter)
    {signalType messageId : String} {payload : Json} {reply : SignalReply}
    (returned : acceptSignal enter db processId signalType messageId payload =
      .ok (later, reply)) : relates db later := by
  simp only [PaymentWorkflow.acceptSignal] at returned
  split at returned
  · split at returned
    · split at returned
      · cases returned
        exact written.refl _
      · simp at returned
    · split at returned
      · cases returned
        exact written.refl _
      · simp at returned
  · exact written.acceptSignalBody entered returned

theorem applyInboxForProcess (written : Written relates) (entered : Relates relates enter)
    {signalType : Option String}
    (returned : applyInboxForProcess enter db processId signalType = .ok later) :
    relates db later := by
  simp only [PaymentWorkflow.applyInboxForProcess] at returned
  split at returned
  · cases returned
    exact written.refl _
  · obtain ⟨⟨accepted, reply⟩, first, rest⟩ := Runs.bind_eq_ok.mp returned
    cases rest
    exact written.trans (written.acceptSignal entered first) (written.applied ..)

theorem enterStep (written : Written relates) :
    ∀ depth, Relates relates (enterStep depth) := by
  intro depth
  induction depth with
  | zero =>
      intro db processId stepKey later returned
      simp [PaymentWorkflow.enterStep] at returned
  | succ depth ih =>
      intro db processId stepKey later returned
      simp only [PaymentWorkflow.enterStep, enterStepBody] at returned
      split at returned
      · simp at returned
      split at returned
      · simp at returned
      rename_i definition _
      have placed := written.placed db processId definition
      split at returned
      · obtain ⟨ready, first, rest⟩ := Runs.bind_eq_ok.mp returned
        exact written.trans (written.trans placed (written.applyReadySignals ih first))
          (written.applyInboxForProcess ih rest)
      · cases returned
        exact placed

end Written

end PaymentWorkflow
