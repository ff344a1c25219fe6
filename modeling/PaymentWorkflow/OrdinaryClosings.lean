import PaymentWorkflow.AgreementProofs

/-! What is closed in ordinary runs has its evidence, and stays closed. -/

namespace PaymentWorkflow

section Closings

variable {db later : Db} {operation : Operation} {process : Process} {claimed : ClaimedJob}

/-- The operation a worker closes is under way, and `approve_v1` is not what closes an execution. -/
theorem Worked.closes {acted : Db} {step : StepInstance} {target : Target}
    (worked : Worked db acted later claimed operation process step target) (agreed : db.Agreed)
    (steady : db.Steady) (pins : db.Pins) (flows : db.config.PaymentFlows) :
    operation.status.terminal = false ∧
      (target = .approveV1 → operation.operationKind ≠ .paymentExecution) := by
  constructor
  · rw [agreed.underWay pins worked.member worked.inside worked.pin worked.running]
    rfl
  rintro rfl execution
  cases worked.acts with
  | leading leaves leads => simp [Config.leadingTargets] at leads
  | closing closes =>
      obtain ⟨binding, found, named⟩ :=
        (pins.startedFor steady.calm.sound.rows worked.member worked.inside worked.pin).bound
      have kind := List.find?_some found
      simp only [decide_eq_true_eq] at kind
      obtain ⟨row, member, flowName, stepKey⟩ := worked.task
      exact flows.approvals binding (List.mem_of_find?_eq_some found) (kind.trans execution) row
        member (flowName.trans named) _ (by rw [stepKey]; exact closes) rfl

structure Db.Stands (db later : Db) : Prop where
  evidenced : AllEvidenced later
  logged : Logged later
  kept : ClosedKept db later

theorem OtherMoves.stands (moves : OtherMoves db later) (steady : db.Steady)
    (evidenced : AllEvidenced db) (logged : Logged db) : db.Stands later where
  evidenced := moves.allEvidenced evidenced
  logged := (moves.final steady logged).1
  kept := (moves.final steady logged).2

theorem CallMoves.stands {invoked : Option (Target × Operation)}
    (moves : CallMoves invoked db later) (steady : db.Steady) (evidenced : AllEvidenced db)
    (logged : Logged db) (closes : ∀ target operation, invoked = some (target, operation) →
      operation.status.terminal = false ∧
        (target = .approveV1 → operation.operationKind ≠ .paymentExecution)) :
    db.Stands later := by
  cases moves with
  | other moves => exact moves.stands steady evidenced logged
  | closing ran close moves =>
      obtain ⟨open_, approval⟩ := closes _ _ ran
      have first := close.final steady open_ logged
      have between := SystemMove.steady (.inr ⟨_, _, close⟩) steady
      have closed := close.allEvidenced steady.ledger
        (fun approves execution => absurd execution (approval approves)) evidenced
      have rest := moves.stands between closed first.1
      exact ⟨rest.evidenced, rest.logged, first.2.trans rest.kept⟩

theorem Proper.stands {system : System} (proper : Proper system) {call : Call}
    (ordinary : call.ordinary = true) (evidenced : AllEvidenced system.db)
    (logged : Logged system.db) : system.db.Stands (step system call).db := by
  cases step_ordinarily proper ordinary with
  | unworked unworked => exact unworked.moves.stands proper.steady evidenced logged
  | worked works moves =>
      refine moves.stands proper.steady evidenced logged ?_
      intro target operation ran
      obtain ⟨rfl, rfl⟩ := Prod.mk.inj (Option.some.inj (ran.symm.trans works.invoked))
      exact works.closes proper.agreed proper.steady proper.pins proper.flows

section Reached

variable {clock : Nat → Time} {digest : String → String}

theorem reached_evidenced (config : Config) (flows : config.PaymentFlows) (calls : List Call)
    (ordinary : ∀ call ∈ calls, call.ordinary = true) :
    AllEvidenced (reached config clock digest calls).db ∧
      Logged (reached config clock digest calls).db := by
  induction calls using List.reverseRecOn with
  | nil =>
      refine ⟨?_, ?_, ?_⟩
      · rintro operation ⟨⟩
      · rintro event ⟨⟩
      · rintro operation ⟨⟩
  | append_singleton done call ih =>
      have before : ∀ other ∈ done, other.ordinary = true :=
        fun other member => ordinary other (List.mem_append_left _ member)
      obtain ⟨evidenced, logged⟩ := ih before
      rw [reached_step]
      have stands := (reached_proper config flows done before).stands (ordinary call (by simp))
        evidenced logged
      exact ⟨stands.evidenced, stands.logged⟩

theorem reached_closedKept (config : Config) (flows : config.PaymentFlows) (calls more : List Call)
    (ordinary : ∀ call ∈ calls ++ more, call.ordinary = true) :
    ClosedKept (reached config clock digest calls).db
      (reached config clock digest (calls ++ more)).db := by
  induction more using List.reverseRecOn with
  | nil =>
      rw [List.append_nil]
      exact fun _ member _ => member
  | append_singleton done call ih =>
      rw [← List.append_assoc] at ordinary ⊢
      have before : ∀ other ∈ calls ++ done, other.ordinary = true :=
        fun other member => ordinary other (List.mem_append_left _ member)
      obtain ⟨evidenced, logged⟩ :=
        @reached_evidenced clock digest config flows (calls ++ done) before
      rw [reached_step]
      exact (ih before).trans ((reached_proper config flows (calls ++ done) before).stands
        (ordinary call (by simp)) evidenced logged).kept

/-- In such runs no guard is needed: a status that closes a payment has the evidence of its kind,
and the operation stays as it is through every later call. -/
theorem closings_stand (clock : Nat → Time) (digest : String → String) (calls more : List Call)
    (ordinary : ∀ call ∈ calls ++ more, call.ordinary = true) :
    AllEvidenced (reached Seed.config clock digest calls).db ∧
      ClosedKept (reached Seed.config clock digest calls).db
        (reached Seed.config clock digest (calls ++ more)).db :=
  ⟨(reached_evidenced Seed.config Seed.paymentFlows calls
    fun call member => ordinary call (List.mem_append_left _ member)).1,
    reached_closedKept Seed.config Seed.paymentFlows calls more ordinary⟩

end Reached

end Closings

def Seed.late : List Call :=
  [receipt "second" (uuidText 10) "REJECTED", .reconcileInbox (some 100) fun _ => false]

theorem closings_stand_completed :
    ClosedKept (seeded Seed.completed).db (seeded (Seed.completed ++ Seed.late)).db ∧
      Seed.closedOperation .paymentExecution .completed ∈
        (seeded Seed.completed).db.payment.operations :=
  ⟨(closings_stand (fun tick => (tick : Int)) id Seed.completed Seed.late (by decide +kernel)).2,
    by decide +kernel⟩

end PaymentWorkflow
