import PaymentWorkflow.SystemCalls

/-!
Which calls write to schema delivery: two actions do, and the engine where it applies a message
of the inbox. Every other action leaves the tables as they were.
-/

namespace PaymentWorkflow

variable {db later : Db} {payload : Json} {envelope : Envelope} {context : Context}

theorem setStatus_delivery {operationId : Nat} {status : OperationStatus}
    {eventType : OperationEventType} {payloadHash : String} {processId : Option Nat}
    (returned : setStatus db operationId status eventType payloadHash processId = .ok later) :
    later.delivery = db.delivery := by
  simp only [setStatus] at returned
  split at returned
  · cases returned
    rfl
  split at returned
  · cases returned
    rfl
  split at returned
  · cases returned
  · cases returned
    rfl

theorem closeOperation_delivery {operation : Operation} {status : OperationStatus}
    {eventType : OperationEventType} {outcome : String}
    (returned : closeOperation db payload operation status eventType outcome = .ok (later, envelope)) :
    later.delivery = db.delivery := by
  obtain ⟨closed, written, rest⟩ := Runs.bind_eq_ok.mp returned
  cases rest
  exact setStatus_delivery written

theorem requestV1_delivery (returned : requestV1 db context payload = .ok (later, envelope)) :
    later.delivery = db.delivery := by
  simp only [requestV1] at returned
  repeat' split at returned
  all_goals first
    | cases returned; rfl
    | cases returned

theorem checkLimit_delivery {operation : Operation}
    (returned : checkLimit db operation = .ok (later, envelope)) :
    later.delivery = db.delivery := by
  simp only [checkLimit] at returned
  split at returned
  · split at returned
    · cases returned
    split at returned
    · cases returned
    cases returned
    split <;> rfl
  · cases returned
    rfl

theorem withEvidence_delivery {operation : Operation} {receipt : ReceiptOutcome}
    {decision : DecisionOutcome} {receiptMissing decisionMissing : String}
    {status : OperationStatus} {eventType : OperationEventType} {outcome : String}
    (returned : withEvidence db operation receipt decision receiptMissing decisionMissing
      (closeOperation db payload operation status eventType outcome) = .ok (later, envelope)) :
    later.delivery = db.delivery := by
  simp only [withEvidence] at returned
  split at returned
  · split at returned
    · exact closeOperation_delivery returned
    · cases returned
      rfl
  · split at returned
    · exact closeOperation_delivery returned
    · cases returned
      rfl

theorem recordDispatch_tables {module action : String} {version : Int}
    (returned : recordDispatch db module action version context envelope = .ok later) :
    later.delivery = db.delivery ∧ later.payment = db.payment := by
  simp only [recordDispatch] at returned
  repeat' split at returned
  all_goals first
    | cases returned; exact ⟨rfl, rfl⟩
    | cases returned

inductive Db.Delivers (db : Db) (context : Context) (payload : Json) (envelope : Envelope) :
    Db → Prop
  | kept {later : Db} (same : later.delivery = db.delivery) :
      Delivers db context payload envelope later
  | engine {processId : Nat} {later : Db} (moves : EngineMoves processId db later) :
      Delivers db context payload envelope later
  | prepared {operation : Operation} {externalRequestId : String} {later : Db}
      (returned : prepareExternal db context operation = .ok (later, externalRequestId)) :
      Delivers db context payload envelope later
  | received {later : Db} (returned : receiptAcceptV1 db context payload = .ok (later, envelope)) :
      Delivers db context payload envelope later

theorem withOperation_delivers {body : Operation → Except SqlError (Db × Envelope)}
    (kept : ∀ operation, body operation = .ok (later, envelope) → ∃ between,
      later.delivery = between.delivery ∧ db.Delivers context payload envelope between)
    (returned : withOperation db payload body = .ok (later, envelope)) : ∃ between,
      later.delivery = between.delivery ∧ db.Delivers context payload envelope between := by
  rcases withOperation_cases returned with ⟨rfl, _⟩ | ⟨operation, _, _, ran⟩
  · exact ⟨later, rfl, .kept rfl⟩
  · exact kept operation ran

theorem submitOperation_delivers {operation : Operation} (steady : db.Steady)
    (returned : submitOperation db payload operation = .ok (later, envelope)) : ∃ between,
      later.delivery = between.delivery ∧ db.Delivers context payload envelope between := by
  simp only [submitOperation] at returned
  split at returned
  · cases returned
    exact ⟨_, rfl, .kept rfl⟩
  split at returned
  · cases returned
    exact ⟨_, rfl, .kept rfl⟩
  split at returned
  · cases returned
    exact ⟨_, rfl, .kept rfl⟩
  obtain ⟨⟨started, reply⟩, first, rest⟩ := Runs.bind_eq_ok.mp returned
  obtain ⟨submitted, written, last⟩ := Runs.bind_eq_ok.mp rest
  cases last
  exact ⟨started, setStatus_delivery written,
    .engine (startProcess_reaches steady.calm first).moves⟩

theorem runTarget_delivers {target : Target} (steady : db.Steady)
    (returned : runTarget target db context payload = .ok (later, envelope)) : ∃ between,
      later.delivery = between.delivery ∧ db.Delivers context payload envelope between := by
  cases target with
  | receiptAcceptV1 => exact ⟨later, rfl, .received returned⟩
  | requestV1 => exact ⟨later, rfl, .kept (requestV1_delivery returned)⟩
  | manualV1 =>
      obtain ⟨owner, reaches⟩ := manualV1_reaches steady.calm returned
      exact ⟨later, rfl, .engine reaches.moves⟩
  | getV1 | operationEventsV1 =>
      refine withOperation_delivers (fun operation ran => ?_) returned
      cases ran
      exact ⟨_, rfl, .kept rfl⟩
  | validateV1 =>
      refine withOperation_delivers (fun operation ran => ⟨later, rfl, .kept ?_⟩) returned
      split at ran <;>
      · cases ran
        rfl
  | applyReceiptV1 =>
      refine withOperation_delivers (fun operation ran => ⟨later, rfl, .kept ?_⟩) returned
      split at ran
      · cases ran
        rfl
      · split at ran <;>
        · cases ran
          rfl
  | submitV1 =>
      exact withOperation_delivers (fun _ ran => submitOperation_delivers steady ran) returned
  | checkLimitV1 =>
      exact withOperation_delivers (fun _ ran => ⟨later, rfl, .kept (checkLimit_delivery ran)⟩)
        returned
  | prepareExternalV1 =>
      refine withOperation_delivers (fun operation ran => ?_) returned
      split at ran
      · cases ran
        exact ⟨_, rfl, .kept rfl⟩
      · obtain ⟨⟨prepared, externalRequestId⟩, first, rest⟩ := Runs.bind_eq_ok.mp ran
        cases rest
        exact ⟨later, rfl, .prepared first⟩
  | approveV1 =>
      refine withOperation_delivers (fun operation ran => ⟨later, rfl, .kept ?_⟩) returned
      split at ran
      · exact closeOperation_delivery ran
      · cases ran
        rfl
  | completeV1 | rejectV1 =>
      exact withOperation_delivers (fun _ ran => ⟨later, rfl, .kept (withEvidence_delivery ran)⟩)
        returned

theorem invoke_delivers {module action : String} {version : Option Int} (steady : db.Steady)
    (returned : invoke db module action version context payload = .ok (later, envelope)) :
    ∃ between, later.delivery = between.delivery ∧
      db.Delivers context payload envelope between := by
  rcases invoke_cases returned with ⟨rfl, _⟩ | ⟨row, target, changed, _, _, _, ran, recorded⟩
  · exact ⟨later, rfl, .kept rfl⟩
  · obtain ⟨between, same, delivers⟩ := runTarget_delivers steady ran
    exact ⟨between, (recordDispatch_tables recorded).1.trans same, delivers⟩

end PaymentWorkflow
