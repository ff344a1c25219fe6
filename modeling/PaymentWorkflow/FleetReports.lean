import PaymentWorkflow.FleetRuns

/-!
What the outbox says of a delivery is what a dispatcher made of the provider's answer under the
last lease of the row.
-/

namespace PaymentWorkflow

/-! Only a report concludes a lease. -/

def OutboxState.concluded : OutboxState → Bool
  | .delivered | .retryWait | .dead => true
  | _ => false

def Call.reports : Call → Bool
  | .succeedOutbox .. | .failOutbox .. => true
  | _ => false

def Db.ConcludedKept (db later : Db) : Prop :=
  ∀ row ∈ later.delivery.outbox, row.state.concluded = true → row ∈ db.delivery.outbox

namespace Db.ConcludedKept

variable {first second third db later : Db}

theorem of_eq (same : later.delivery.outbox = db.delivery.outbox) : db.ConcludedKept later :=
  fun _ member _ => same ▸ member

theorem trans (left : first.ConcludedKept second) (right : second.ConcludedKept third) :
    first.ConcludedKept third :=
  fun row member concluded => left row (right row member concluded) concluded

theorem insertOutbox (kept : first.ConcludedKept second) (externalRequestId : String)
    (correlationId : Nat) :
    first.ConcludedKept (second.insertOutbox externalRequestId correlationId) := by
  intro row member concluded
  rcases List.mem_append.mp member with old | new
  · exact kept row old concluded
  · obtain rfl := List.mem_singleton.mp new
    cases concluded

theorem updateOutbox (kept : first.ConcludedKept second) (matched : OutboxRow → Bool)
    {change : OutboxRow → OutboxRow}
    (reopened : ∀ row : OutboxRow, (change row).state.concluded = false) :
    first.ConcludedKept (second.updateOutbox matched change) := by
  intro row member concluded
  obtain ⟨old, oldMember, rfl⟩ := Table.mem_update.mp member
  cases hit : matched old with
  | true =>
      simp only [hit, if_true, reopened old] at concluded
      cases concluded
  | false =>
      simp only [hit, Bool.false_eq_true, if_false] at concluded ⊢
      exact kept old oldMember concluded

end Db.ConcludedKept

section Calls

variable {db later : Db}

theorem EngineMoves.concludedKept {processId : Nat} (moves : EngineMoves processId db later) :
    db.ConcludedKept later := .of_eq moves.outbox_eq.2

theorem Db.Steps.concludedKept (steps : db.Steps later) : db.ConcludedKept later := by
  induction steps with
  | refl => exact .of_eq rfl
  | tail _ reaches ih =>
      obtain ⟨processId, reached⟩ := reaches
      exact ih.trans reached.moves.concludedKept

theorem prepareExternal_concludedKept {context : Context} {operation : Operation}
    {externalRequestId : String}
    (returned : prepareExternal db context operation = .ok (later, externalRequestId)) :
    db.ConcludedKept later := by
  simp only [prepareExternal] at returned
  split at returned
  · obtain ⟨correlationId, _, placed⟩ := Runs.bind_eq_ok.mp returned
    split at placed
    · cases placed
    · cases placed
      exact Db.ConcludedKept.insertOutbox (.of_eq rfl) _ _
  · split at returned
    · cases returned
      exact .of_eq rfl
    · obtain ⟨correlationId, _, placed⟩ := Runs.bind_eq_ok.mp returned
      cases placed
      exact (Db.ConcludedKept.of_eq rfl).insertOutbox _ _

theorem receiptAcceptV1_concludedKept {context : Context} {payload : Json} {envelope : Envelope}
    (returned : receiptAcceptV1 db context payload = .ok (later, envelope)) :
    db.ConcludedKept later := by
  rcases receiptAcceptV1_cases returned with rfl | ⟨arrival, outcome, _, _, _, rfl⟩
  · exact .of_eq rfl
  · exact Db.ConcludedKept.updateOutbox (.of_eq rfl) _ fun _ => rfl

theorem invoke_concludedKept {module action : String} {version : Option Int} {context : Context}
    {payload : Json} {envelope : Envelope} (steady : db.Steady)
    (returned : invoke db module action version context payload = .ok (later, envelope)) :
    db.ConcludedKept later := by
  obtain ⟨between, same, delivers⟩ := invoke_delivers steady returned
  have kept : db.ConcludedKept between := by
    cases delivers with
    | kept same => exact .of_eq (by rw [same])
    | engine moves => exact moves.concludedKept
    | prepared returned => exact prepareExternal_concludedKept returned
    | received returned => exact receiptAcceptV1_concludedKept returned
  exact kept.trans (.of_eq (by rw [same]))

theorem claimOutbox_concludedKept {owner : String} {limit : Option Int} {locked : Nat → Bool}
    {claims : List OutboxClaim}
    (returned : claimOutbox db owner limit locked = .ok (later, claims)) :
    db.ConcludedKept later := by
  simp only [claimOutbox] at returned
  split at returned
  · cases returned
  split at returned
  · cases returned
  cases returned
  exact Db.ConcludedKept.updateOutbox (.of_eq rfl) _ fun _ => rfl

theorem execDb_concludedKept {call : Call} (steady : db.Steady) (silent : call.reports = false)
    (returned : execDb db call = some later) : db.ConcludedKept later := by
  cases call with
  | startProcess flowName businessKey data =>
      obtain ⟨reply, ok⟩ := returned_db returned
      exact (startProcess_reaches steady.calm ok).moves.concludedKept
  | acceptSignal processId signalType messageId payload =>
      obtain ⟨reply, ok⟩ := returned_db returned
      exact (acceptSignalCall_reaches steady.calm ok).moves.concludedKept
  | reconcileInbox limit locked =>
      obtain ⟨count, ok⟩ := returned_db returned
      exact (reconcileInbox_steps steady.calm ok).concludedKept
  | claimJobs owner batch leaseMs locked =>
      obtain ⟨claimed, ok⟩ := returned_db returned
      exact (claimJobs_steps steady.calm ok).concludedKept
  | finishJob jobId owner leaseVersion outcome =>
      obtain ⟨reply, ok⟩ := returned_db returned
      obtain ⟨job, _, _, _, reaches⟩ := finishJob_reaches steady.calm ok
      exact reaches.moves.concludedKept
  | failJob jobId owner leaseVersion errorCode retryable =>
      obtain ⟨reply, ok⟩ := returned_db returned
      obtain ⟨job, _, _, _, reaches⟩ := failJob_reaches steady.calm ok
      exact reaches.moves.concludedKept
  | work claimed =>
      simp only [execDb] at returned
      cases worked : workTransaction db claimed with
      | error failure => simp [worked, Except.toOption] at returned
      | ok finished =>
          simp only [worked, Except.toOption, Option.some.injEq] at returned
          subst returned
          obtain ⟨acted, outcome, reply, ran, completed⟩ := workTransaction_cases worked
          have calm := ((runAction_moves steady ran).system.steady steady).calm
          obtain ⟨payload, result, _, invoked, _⟩ := runAction_cases ran
          obtain ⟨job, _, _, _, reaches⟩ := finishJob_reaches calm completed
          exact (invoke_concludedKept steady invoked).trans reaches.moves.concludedKept
  | invoke module action version context payload =>
      obtain ⟨envelope, ok⟩ := returned_db returned
      exact invoke_concludedKept steady ok
  | claimOutbox owner limit locked =>
      obtain ⟨claims, ok⟩ := returned_db returned
      exact claimOutbox_concludedKept ok
  | succeedOutbox | failOutbox => cases silent

theorem step_concludedKept {system : System} (steady : system.db.Steady) {call : Call}
    (silent : call.reports = false) : system.db.ConcludedKept (step system call).db := by
  simp only [step]
  split
  · cases returned : execDb system.db call with
    | none => exact .of_eq rfl
    | some later => exact execDb_concludedKept steady silent returned
  · exact .of_eq rfl

end Calls

namespace Dispatcher

open Interleaving (World)

/-! What the attempts came to, and what the rows tell of it. -/

def Fleet.Concluded (fleet : Fleet) (outlet : Outlet) (lease : Nat × Nat)
    (result : Except String String) : Prop :=
  ∃ attempt ∈ outlet.attempts, attempt.row.lease = lease ∧
    (postJson attempt.reply).2.result? fleet.libraries = some result

def Retries (config : PaymentWorkflow.Config) (row : OutboxRow) (errorCode : String) : Prop :=
  isRetryableCode (some errorCode) = true ∧ ∃ policy, config.outboxPolicy = some policy ∧
    (row.attemptCount : Int) < policy.maxAttempts

structure Fleet.Tells (fleet : Fleet) (outlet : Outlet) (row : OutboxRow) : Prop where
  delivered : row.state = .delivered → ∃ paymentId,
    fleet.Concluded outlet (row.id, row.leaseVersion) (.ok paymentId)
  retried : row.state = .retryWait → ∃ errorCode,
    fleet.Concluded outlet (row.id, row.leaseVersion) (.error errorCode) ∧
      row.lastErrorCode = some errorCode ∧ Retries outlet.system.db.config row errorCode
  dead : row.state = .dead → ∃ errorCode,
    fleet.Concluded outlet (row.id, row.leaseVersion) (.error errorCode) ∧
      row.lastErrorCode = some errorCode ∧ ¬ Retries outlet.system.db.config row errorCode

structure Fleet.Truthful (fleet : Fleet) (world : World Outlet Batch) : Prop where
  rows : ∀ row ∈ world.shared.system.db.delivery.outbox, fleet.Tells world.shared row
  reports : ∀ index, ∀ report ∈ (world.party index).report,
    fleet.Concluded world.shared (report.outboxId, report.leaseVersion) report.result

section Tells

variable {fleet : Fleet} {outlet later : Outlet} {row : OutboxRow}

theorem Fleet.Concluded.grows {lease : Nat × Nat} {result : Except String String}
    (concluded : fleet.Concluded outlet lease result) (grows : outlet.attempts ⊆ later.attempts) :
    fleet.Concluded later lease result := by
  obtain ⟨attempt, made, facts⟩ := concluded
  exact ⟨attempt, grows made, facts⟩

theorem Fleet.Tells.grows (tells : fleet.Tells outlet row)
    (grows : outlet.attempts ⊆ later.attempts)
    (config : later.system.db.config = outlet.system.db.config) : fleet.Tells later row where
  delivered := by
    intro state
    obtain ⟨paymentId, concluded⟩ := tells.delivered state
    exact ⟨paymentId, concluded.grows grows⟩
  retried := by
    intro state
    obtain ⟨errorCode, concluded, rest⟩ := tells.retried state
    exact ⟨errorCode, concluded.grows grows, config ▸ rest⟩
  dead := by
    intro state
    obtain ⟨errorCode, concluded, rest⟩ := tells.dead state
    exact ⟨errorCode, concluded.grows grows, config ▸ rest⟩

theorem Fleet.Tells.open_ (open_ : row.state.concluded = false) : fleet.Tells outlet row := by
  constructor <;> (intro state; rw [state] at open_; cases open_)

theorem Fleet.Tells.of_delivered (state : row.state = .delivered) {paymentId : String}
    (concluded : fleet.Concluded outlet (row.id, row.leaseVersion) (.ok paymentId)) :
    fleet.Tells outlet row where
  delivered := fun _ => ⟨paymentId, concluded⟩
  retried := by simp [state]
  dead := by simp [state]

theorem Fleet.Tells.of_retried (state : row.state = .retryWait) {errorCode : String}
    (concluded : fleet.Concluded outlet (row.id, row.leaseVersion) (.error errorCode))
    (recorded : row.lastErrorCode = some errorCode)
    (retries : Retries outlet.system.db.config row errorCode) : fleet.Tells outlet row where
  delivered := by simp [state]
  retried := fun _ => ⟨errorCode, concluded, recorded, retries⟩
  dead := by simp [state]

theorem Fleet.Tells.of_dead (state : row.state = .dead) {errorCode : String}
    (concluded : fleet.Concluded outlet (row.id, row.leaseVersion) (.error errorCode))
    (recorded : row.lastErrorCode = some errorCode)
    (final : ¬ Retries outlet.system.db.config row errorCode) : fleet.Tells outlet row where
  delivered := by simp [state]
  retried := by simp [state]
  dead := fun _ => ⟨errorCode, concluded, recorded, final⟩

theorem heldBy_lease {outboxId leaseVersion : Nat} {owner : Option String}
    (held : row.heldBy outboxId owner (some (leaseVersion : Int)) = true) :
    (row.id, row.leaseVersion) = (outboxId, leaseVersion) := by
  simp only [OutboxRow.heldBy, decide_eq_true_eq, Option.some.injEq, Nat.cast_inj] at held
  obtain ⟨same, _, _, version, _⟩ := held
  rw [same, version]

theorem perform_config (report : Report) (db : Db) : (report.perform db).config = db.config := by
  obtain ⟨owner, outboxId, leaseVersion, result⟩ := report
  cases result with
  | ok paymentId =>
      simp only [Report.perform, succeedOutbox]
      split <;> rfl
  | error errorCode =>
      simp only [Report.perform, failOutbox]
      split
      · rfl
      · split <;> rfl

theorem perform_tells {db : Db} {report : Report} (same : later.system.db = report.perform db)
    (ledger : db.Ledger)
    (concluded : fleet.Concluded later (report.outboxId, report.leaseVersion) report.result)
    (tells : ∀ row ∈ db.delivery.outbox, fleet.Tells later row) :
    ∀ row ∈ later.system.db.delivery.outbox, fleet.Tells later row := by
  have config : later.system.db.config = db.config := by rw [same, perform_config]
  obtain ⟨owner, outboxId, leaseVersion, result⟩ := report
  rw [same]
  cases result with
  | ok paymentId =>
      simp only [Report.perform, succeedOutbox]
      split
      · exact tells
      · intro row member
        obtain ⟨old, oldMember, rfl⟩ := Table.mem_update.mp member
        split
        · rename_i held
          exact .of_delivered rfl ((heldBy_lease held).symm ▸ concluded)
        · exact tells old oldMember
  | error errorCode =>
      simp only [Report.perform, failOutbox]
      split
      · exact tells
      · rename_i found first
        have foundHeld := List.find?_some first
        have foundMember := List.mem_of_find?_eq_some first
        have unique : ∀ old ∈ db.delivery.outbox, old.heldBy outboxId (some owner)
            (some (leaseVersion : Int)) = true → old = found := by
          intro old oldMember held
          exact Table.key_unique ledger.outboxIds oldMember foundMember
            ((heldBy_self held).trans (heldBy_self foundHeld).symm)
        split
        · rename_i delay scheduled
          have retries : Retries later.system.db.config found errorCode := by
            rw [config]
            split at scheduled
            · cases scheduled
            · rename_i policy configured
              split at scheduled
              · rename_i allowed
                exact ⟨allowed.1, policy, configured, allowed.2⟩
              · cases scheduled
          intro row member
          obtain ⟨old, oldMember, rfl⟩ := Table.mem_update.mp member
          split
          · rename_i held
            obtain rfl := unique old oldMember held
            exact .of_retried rfl ((heldBy_lease held).symm ▸ concluded) rfl retries
          · exact tells old oldMember
        · rename_i spent
          have final : ¬ Retries later.system.db.config found errorCode := by
            rw [config]
            rintro ⟨retryable, policy, configured, within⟩
            rw [configured] at spent
            simp [retryable, within] at spent
          intro row member
          obtain ⟨old, oldMember, rfl⟩ := Table.mem_update.mp member
          split
          · rename_i held
            obtain rfl := unique old oldMember held
            exact .of_dead rfl ((heldBy_lease held).symm ▸ concluded) rfl final
          · exact tells old oldMember

end Tells

section Turns

variable {fleet : Fleet} {world : World Outlet Batch}

def Turn.reports : Turn → Bool
  | .call made => made.reports
  | .dispatcher .. => false

/-- Where no lease is concluded and no attempt forgotten, the rows go on telling the truth. -/
theorem Fleet.Truthful.rows_kept (truthful : fleet.Truthful world) {outlet : Outlet}
    (grows : world.shared.attempts ⊆ outlet.attempts)
    (config : outlet.system.db.config = world.shared.system.db.config)
    (kept : world.shared.system.db.ConcludedKept outlet.system.db) :
    ∀ row ∈ outlet.system.db.delivery.outbox, fleet.Tells outlet row := by
  intro row member
  cases concluded : row.state.concluded with
  | true => exact (truthful.rows row (kept row member concluded)).grows grows config
  | false => exact .open_ concluded

theorem Fleet.Truthful.turn (truthful : fleet.Truthful world) {index : Nat} {outlet : Outlet}
    {batch : Batch} (rows : ∀ row ∈ outlet.system.db.delivery.outbox, fleet.Tells outlet row)
    (grows : world.shared.attempts ⊆ outlet.attempts)
    (own : ∀ report ∈ batch.report,
      fleet.Concluded outlet (report.outboxId, report.leaseVersion) report.result) :
    fleet.Truthful (world.turn index outlet batch) where
  rows := rows
  reports := by
    refine @World.turn_each _ _ world index outlet batch (fun outlet _ batch => ∀ report ∈ batch.report,
      fleet.Concluded outlet (report.outboxId, report.leaseVersion) report.result)
      truthful.reports own ?_
    exact fun other _ before report due => (before report due).grows grows

theorem Fleet.turn_truthful (steady : world.shared.system.db.Steady)
    (truthful : fleet.Truthful world) {turn : Turn} (silent : turn.reports = false) :
    fleet.Truthful (fleet.turn world turn) := by
  cases turn with
  | call call =>
      have config : (step world.shared.system call).db.config = world.shared.system.db.config :=
        (step_moves steady call).config_eq
      refine ⟨truthful.rows_kept (List.Subset.refl _) config (step_concludedKept steady silent), ?_⟩
      exact fun index report due => (truthful.reports index report due).grows (List.Subset.refl _)
  | dispatcher index move =>
      have moved := fleet.moved (fleet.config index) world.shared (world.party index) move
      simp only [Fleet.turn]
      generalize fleet.move (fleet.config index) world.shared (world.party index) move = result
        at moved
      have none_ : ∀ outlet, ∀ report ∈ (none : Option Report),
          fleet.Concluded outlet (report.outboxId, report.leaseVersion) report.result := by
        intro outlet report due
        cases due
      cases moved with
      | none =>
          exact truthful.turn truthful.rows (List.Subset.refl _) (truthful.reports index)
      | claimed free returned =>
          refine truthful.turn ?_ (List.Subset.refl _) (none_ _)
          have moves := OtherMoves.of_outside (claimOutbox_moves steady.ledger.outboxIds returned)
          exact truthful.rows_kept (List.Subset.refl _) moves.system.config_eq
            (claimOutbox_concludedKept returned)
      | @attempted row rest reply next =>
          refine truthful.turn ?_ (List.subset_append_left _ _) ?_
          · exact truthful.rows_kept (List.subset_append_left _ _) rfl (.of_eq rfl)
          · intro report due
            cases reaction : (exchange fleet.libraries (fleet.config index) reply row).2 with
            | skipped | aborted =>
                rw [reaction] at due
                cases due
            | report made =>
                rw [reaction] at due
                cases due
                obtain ⟨result, came, rfl⟩ := exchange_report.mp reaction
                exact ⟨⟨_, row, reply⟩, List.mem_append_right _ (List.mem_singleton_self _), rfl, came⟩
      | @reported rows report due =>
          have concluded := truthful.reports index report (by rw [due]; rfl)
          refine truthful.turn ?_ (List.Subset.refl _) (none_ _)
          refine perform_tells rfl steady.ledger (concluded.grows (List.Subset.refl _)) ?_
          exact fun row member => (truthful.rows row member).grows (List.Subset.refl _)
            (perform_config report _)
      | lost due => exact truthful.turn truthful.rows (List.Subset.refl _) (none_ _)
      | died => exact truthful.turn truthful.rows (List.Subset.refl _) (none_ _)

theorem Fleet.run_truthful {config : Config} {clock : Nat → Time} {digest : String → String} :
    ∀ (turns : List Turn) (world : World Outlet Batch), Served config clock digest world →
      fleet.Truthful world → (∀ turn ∈ turns, turn.reports = false) →
        fleet.Truthful (Runs.run fleet.turn world turns) := by
  intro turns
  induction turns with
  | nil => intro world _ truthful _; exact truthful
  | cons turn rest ih =>
      intro world served truthful silent
      refine ih _ (served.turn fleet turn) ?_ fun other member => silent other (.tail _ member)
      exact fleet.turn_truthful served.steady truthful (silent turn (.head _))

end Turns

/--
Where only the dispatchers report: a row is DELIVERED only if the provider answered an attempt under
its last lease with the strict 202, it waits for a retry only after a retryable failure with
attempts left, and it is DEAD only after a failure that is none or with none left; the error it
keeps is the one that attempt met.
-/
theorem outbox_tells_of_attempts (fleet : Fleet) (config : Config) (clock : Nat → Time)
    (digest : String → String) (turns : List Turn) (silent : ∀ turn ∈ turns, turn.reports = false) :
    let outlet := (fleet.operated config clock digest turns).shared
    ∀ row ∈ outlet.system.db.delivery.outbox,
      (row.state = .delivered → ∃ attempt ∈ outlet.attempts,
        attempt.row.lease = (row.id, row.leaseVersion) ∧ ∃ body paymentId,
          (postJson attempt.reply).2 = .answer (some 202) body ∧
            IsAcceptance fleet.libraries body paymentId) ∧
      (row.state = .retryWait ∨ row.state = .dead → ∃ attempt ∈ outlet.attempts,
        attempt.row.lease = (row.id, row.leaseVersion) ∧ ∃ errorCode,
          (postJson attempt.reply).2.result? fleet.libraries = some (.error errorCode) ∧
            row.lastErrorCode = some errorCode ∧
            (row.state = .retryWait ↔ Retries config row errorCode)) := by
  have truthful : fleet.Truthful (fleet.operated config clock digest turns) := by
    refine Fleet.run_truthful turns (Fleet.initial config clock digest) ⟨[], rfl⟩ ⟨?_, ?_⟩ silent
    · exact fun row member => absurd member List.not_mem_nil
    · intro index report due
      cases due
  have same : (fleet.operated config clock digest turns).shared.system.db.config = config := by
    obtain ⟨calls, reaches⟩ := @Fleet.operated_served config clock digest fleet turns
    rw [reaches]
    exact reached_config calls
  intro outlet row member
  have tells := truthful.rows row member
  constructor
  · intro state
    obtain ⟨paymentId, attempt, made, lease, result⟩ := tells.delivered state
    obtain ⟨body, named, answer, accepts, -⟩ := (result?_ok fleet.libraries).mp result
    exact ⟨attempt, made, lease, body, named, answer, accepts⟩
  · rintro (state | state)
    · obtain ⟨errorCode, ⟨attempt, made, lease, result⟩, recorded, retries⟩ := tells.retried state
      exact ⟨attempt, made, lease, errorCode, result, recorded,
        iff_of_true state (same ▸ retries)⟩
    · obtain ⟨errorCode, ⟨attempt, made, lease, result⟩, recorded, final⟩ := tells.dead state
      refine ⟨attempt, made, lease, errorCode, result, recorded, ?_⟩
      refine iff_of_false ?_ (same ▸ final)
      rw [state]
      simp

/-- The second dispatcher's report is the one the row keeps. -/
theorem outbox_tells_of_attempts_taken_over :
    let outlet := (Sample.fleet.operated Seed.config Seed.tens id Sample.takenOver).shared
    ∃ row ∈ outlet.system.db.delivery.outbox, row.state = .retryWait ∧ row.leaseVersion = 2 ∧
      ∃ attempt ∈ outlet.attempts, attempt.row.lease = (row.id, row.leaseVersion) ∧ ∃ errorCode,
        (postJson attempt.reply).2.result? Sample.fleet.libraries = some (.error errorCode) ∧
          row.lastErrorCode = some errorCode ∧ Retries Seed.config row errorCode := by
  have waits : ∃ row ∈ (Sample.fleet.operated Seed.config Seed.tens id
      Sample.takenOver).shared.system.db.delivery.outbox,
      row.state = .retryWait ∧ row.leaseVersion = 2 := by decide +kernel
  obtain ⟨row, member, state, version⟩ := waits
  have tells := outbox_tells_of_attempts Sample.fleet Seed.config Seed.tens id Sample.takenOver
    (by decide) row member
  obtain ⟨attempt, made, lease, errorCode, result, recorded, retries⟩ := tells.2 (.inl state)
  exact ⟨row, member, state, version, attempt, made, lease, errorCode, result, recorded,
    retries.mp state⟩

end Dispatcher

end PaymentWorkflow
