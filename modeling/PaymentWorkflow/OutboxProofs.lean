import PaymentWorkflow.DeliveryCalls
import PaymentWorkflow.ReceiptCalls
import PaymentWorkflow.SystemRuns

/-!
How often the outbox is leased: `fail_outbox` compares the count with the policy, `claim_outbox`
only counts, and takes over a lease that has expired whatever the count.
-/

namespace PaymentWorkflow

/-! What every row of the outbox keeps. -/

structure OutboxRow.Sound (row : OutboxRow) (policy : OutboxPolicy) : Prop where
  unclaimed : row.state = .pending → row.attemptCount = 0
  putOff : row.state = .retryWait → row.nextAttemptAt ≠ none
  remains : row.state = .retryWait → (row.attemptCount : Int) < policy.maxAttempts
  leases : row.leaseVersion = row.attemptCount

structure Db.OutboxSound (db : Db) (policy : OutboxPolicy) : Prop where
  configured : db.config.outboxPolicy = some policy
  rows : ∀ row ∈ db.delivery.outbox, row.Sound policy

namespace Db.OutboxSound

variable {db later : Db} {policy : OutboxPolicy}

theorem of_eq (sound : db.OutboxSound policy) (config : later.config = db.config)
    (same : later.delivery.outbox = db.delivery.outbox) : later.OutboxSound policy :=
  ⟨config ▸ sound.configured, fun row member => sound.rows row (same ▸ member)⟩

theorem updateExternal (sound : db.OutboxSound policy) (matched : ExternalRequest → Bool)
    (change : ExternalRequest → ExternalRequest) :
    (db.updateExternal matched change).OutboxSound policy := sound.of_eq rfl rfl

theorem insertOutbox (sound : db.OutboxSound policy) (externalRequestId : String)
    (correlationId : Nat) : (db.insertOutbox externalRequestId correlationId).OutboxSound policy := by
  refine ⟨sound.configured, fun row member => ?_⟩
  rcases List.mem_append.mp member with old | new
  · exact sound.rows row old
  · obtain rfl := List.mem_singleton.mp new
    exact ⟨fun _ => rfl, nofun, nofun, rfl⟩

theorem updateOutbox (sound : db.OutboxSound policy) {matched : OutboxRow → Bool}
    {change : OutboxRow → OutboxRow}
    (changed : ∀ row ∈ db.delivery.outbox, matched row = true → row.Sound policy →
      (change row).Sound policy) : (db.updateOutbox matched change).OutboxSound policy := by
  refine ⟨sound.configured, fun row member => ?_⟩
  obtain ⟨old, oldMember, rfl⟩ := Table.mem_update.mp member
  cases hit : matched old with
  | true => exact changed old oldMember hit (sound.rows old oldMember)
  | false => exact sound.rows old oldMember

end Db.OutboxSound

theorem OutsideMove.outboxSound {policy : OutboxPolicy} {db later : Db}
    (move : OutsideMove db later) (ledger : db.Ledger) (sound : db.OutboxSound policy) :
    later.OutboxSound policy := by
  cases move with
  | ticked | requested | submitted | limitDecided | dispatched => exact sound.of_eq rfl rfl
  | prepared correlationId =>
      refine Db.OutboxSound.insertOutbox ?_ _ _
      exact sound.of_eq rfl rfl
  | requeued => exact sound.insertOutbox _ _
  | outboxLeased =>
      refine sound.updateOutbox fun row _ _ rowSound => ?_
      exact ⟨nofun, nofun, nofun, congrArg (· + 1) rowSound.leases⟩
  | outboxDelivered =>
      refine Db.OutboxSound.updateExternal ?_ _ _
      exact sound.updateOutbox fun row _ _ rowSound => ⟨nofun, nofun, nofun, rowSound.leases⟩
  | outboxRetried nextAttemptAt member held configured within =>
      refine sound.updateOutbox fun row rowMember hit rowSound => ?_
      obtain rfl := Table.key_unique ledger.outboxIds rowMember member (heldBy_self hit)
      rw [sound.configured] at configured
      cases configured
      exact ⟨nofun, fun _ => Option.some_ne_none _, fun _ => within, rowSound.leases⟩
  | outboxDied =>
      exact sound.updateOutbox fun row _ _ rowSound => ⟨nofun, nofun, nofun, rowSound.leases⟩
  | received =>
      refine Db.OutboxSound.updateOutbox ?_ fun row _ _ rowSound =>
        ⟨nofun, nofun, nofun, rowSound.leases⟩
      exact sound.of_eq rfl rfl

theorem SystemMoves.outboxSound {policy : OutboxPolicy} {db later : Db}
    (moves : SystemMoves db later) (steady : db.Steady) (sound : db.OutboxSound policy) :
    later.OutboxSound policy := by
  refine SystemMoves.invariant (fun db => db.OutboxSound policy) ?_ ?_ ?_ moves steady sound
  · intro processId before after _ _ sound move
    exact sound.of_eq move.config_eq move.outbox_eq.2
  · intro before after _ ledger sound move
    exact move.outboxSound ledger sound
  · intro target operation before after _ _ sound move
    exact sound.of_eq move.config_eq (by rw [move.delivery_eq])

theorem reached_outboxSound {config : Config} {policy : OutboxPolicy}
    (configured : config.outboxPolicy = some policy) (clock : Nat → Time)
    (digest : String → String) (calls : List Call) :
    (reached config clock digest calls).db.OutboxSound policy := by
  refine (run_moves calls (fresh config clock digest) initial_steady).outboxSound initial_steady ?_
  exact ⟨configured, by simp [fresh, Db.initial]⟩

/-! Only `claim_outbox` counts a lease. -/

def Db.CountsKept (db later : Db) : Prop :=
  ∀ row ∈ later.delivery.outbox, row.attemptCount = 0 ∨
    ∃ old ∈ db.delivery.outbox, old.attemptCount = row.attemptCount

namespace Db.CountsKept

variable {first second third db later : Db}

theorem of_eq (same : later.delivery.outbox = db.delivery.outbox) : db.CountsKept later :=
  fun row member => .inr ⟨row, same ▸ member, rfl⟩

theorem trans (left : first.CountsKept second) (right : second.CountsKept third) :
    first.CountsKept third := by
  intro row member
  rcases right row member with none | ⟨old, oldMember, same⟩
  · exact .inl none
  · rw [← same]
    exact left old oldMember

theorem insertOutbox (kept : first.CountsKept second) (externalRequestId : String)
    (correlationId : Nat) :
    first.CountsKept (second.insertOutbox externalRequestId correlationId) := by
  intro row member
  rcases List.mem_append.mp member with old | new
  · exact kept row old
  · obtain rfl := List.mem_singleton.mp new
    exact .inl rfl

theorem updateOutbox (kept : first.CountsKept second) (matched : OutboxRow → Bool)
    {change : OutboxRow → OutboxRow}
    (same : ∀ row, (change row).attemptCount = row.attemptCount) :
    first.CountsKept (second.updateOutbox matched change) := by
  intro row member
  obtain ⟨old, oldMember, rfl⟩ := Table.mem_update.mp member
  have counts : (if matched old then change old else old).attemptCount = old.attemptCount := by
    split
    · exact same old
    · rfl
  rw [counts]
  exact kept old oldMember

end Db.CountsKept

section Calls

variable {db later : Db}

theorem EngineMoves.countsKept {processId : Nat} (moves : EngineMoves processId db later) :
    db.CountsKept later := .of_eq moves.outbox_eq.2

theorem Db.Steps.countsKept (steps : db.Steps later) : db.CountsKept later := by
  induction steps with
  | refl => exact .of_eq rfl
  | tail _ reaches ih =>
      obtain ⟨processId, reached⟩ := reaches
      exact ih.trans reached.moves.countsKept

theorem prepareExternal_countsKept {context : Context} {operation : Operation}
    {externalRequestId : String}
    (returned : prepareExternal db context operation = .ok (later, externalRequestId)) :
    db.CountsKept later := by
  simp only [prepareExternal] at returned
  split at returned
  · obtain ⟨correlationId, _, placed⟩ := Runs.bind_eq_ok.mp returned
    split at placed
    · cases placed
    · cases placed
      refine Db.CountsKept.insertOutbox ?_ _ _
      exact .of_eq rfl
  · split at returned
    · cases returned
      exact .of_eq rfl
    · obtain ⟨correlationId, _, placed⟩ := Runs.bind_eq_ok.mp returned
      cases placed
      exact (Db.CountsKept.of_eq rfl).insertOutbox _ _

theorem receiptAcceptV1_countsKept {context : Context} {payload : Json} {envelope : Envelope}
    (returned : receiptAcceptV1 db context payload = .ok (later, envelope)) :
    db.CountsKept later := by
  rcases receiptAcceptV1_cases returned with rfl | ⟨arrival, outcome, _, _, _, rfl⟩
  · exact .of_eq rfl
  · refine Db.CountsKept.updateOutbox ?_ _ fun _ => rfl
    exact .of_eq rfl

theorem invoke_countsKept {module action : String} {version : Option Int} {context : Context}
    {payload : Json} {envelope : Envelope} (steady : db.Steady)
    (returned : invoke db module action version context payload = .ok (later, envelope)) :
    db.CountsKept later := by
  obtain ⟨between, same, delivers⟩ := invoke_delivers steady returned
  have kept : db.CountsKept between := by
    cases delivers with
    | kept same => exact .of_eq (by rw [same])
    | engine moves => exact moves.countsKept
    | prepared returned => exact prepareExternal_countsKept returned
    | received returned => exact receiptAcceptV1_countsKept returned
  exact kept.trans (.of_eq (by rw [same]))

theorem execDb_countsKept {call : Call} (steady : db.Steady)
    (other : ∀ owner limit locked, call ≠ .claimOutbox owner limit locked)
    (returned : execDb db call = some later) : db.CountsKept later := by
  cases call with
  | startProcess flowName businessKey data =>
      obtain ⟨reply, ok⟩ := returned_db returned
      exact (startProcess_reaches steady.calm ok).moves.countsKept
  | acceptSignal processId signalType messageId payload =>
      obtain ⟨reply, ok⟩ := returned_db returned
      exact (acceptSignalCall_reaches steady.calm ok).moves.countsKept
  | reconcileInbox limit locked =>
      obtain ⟨count, ok⟩ := returned_db returned
      exact (reconcileInbox_steps steady.calm ok).countsKept
  | claimJobs owner batch leaseMs locked =>
      obtain ⟨claimed, ok⟩ := returned_db returned
      exact (claimJobs_steps steady.calm ok).countsKept
  | finishJob jobId owner leaseVersion outcome =>
      obtain ⟨reply, ok⟩ := returned_db returned
      obtain ⟨job, _, _, _, reaches⟩ := finishJob_reaches steady.calm ok
      exact reaches.moves.countsKept
  | failJob jobId owner leaseVersion errorCode retryable =>
      obtain ⟨reply, ok⟩ := returned_db returned
      obtain ⟨job, _, _, _, reaches⟩ := failJob_reaches steady.calm ok
      exact reaches.moves.countsKept
  | work claimed =>
      simp only [execDb] at returned
      cases worked : workTransaction db claimed with
      | error failure => simp [worked, Except.toOption] at returned
      | ok finished =>
          simp only [worked, Except.toOption, Option.some.injEq] at returned
          subst returned
          obtain ⟨acted, outcome, reply, ran, completed⟩ := workTransaction_cases worked
          have calm := ((runAction_moves steady ran).system.steady steady).calm
          obtain ⟨payload, result, _, invoked, _⟩ := runAction_cases ran
          obtain ⟨job, _, _, _, reaches⟩ := finishJob_reaches calm completed
          exact (invoke_countsKept steady invoked).trans reaches.moves.countsKept
  | invoke module action version context payload =>
      obtain ⟨envelope, ok⟩ := returned_db returned
      exact invoke_countsKept steady ok
  | claimOutbox owner limit locked => exact absurd rfl (other owner limit locked)
  | succeedOutbox outboxId owner leaseVersion providerPaymentId =>
      cases returned
      simp only [succeedOutbox]
      split
      · exact .of_eq rfl
      · refine Db.CountsKept.trans ?_ (.of_eq rfl)
        exact (Db.CountsKept.of_eq rfl).updateOutbox _ fun _ => rfl
  | failOutbox outboxId owner leaseVersion errorCode =>
      cases returned
      simp only [failOutbox]
      split
      · exact .of_eq rfl
      · split
        · refine Db.CountsKept.trans ?_ (.of_eq rfl)
          exact (Db.CountsKept.of_eq rfl).updateOutbox _ fun _ => rfl
        · exact (Db.CountsKept.of_eq rfl).updateOutbox _ fun _ => rfl

end Calls

/-! The bound, and the leases that break it. -/

def Db.WithinPolicy (db : Db) (policy : OutboxPolicy) : Prop :=
  ∀ row ∈ db.delivery.outbox, (row.attemptCount : Int) ≤ policy.maxAttempts

/-- The call leases a row that has no attempt left: one whose last lease has expired, or a new
one where the policy allows none. -/
def Call.Overdraws (policy : OutboxPolicy) (system : System) : Call → Prop
  | .claimOutbox owner limit locked => owner ≠ "" ∧ (∀ count ∈ limit, 1 ≤ count ∧ count ≤ 100) ∧
      ∃ row ∈ system.db.pickOutbox limit locked,
        row.state ≠ .retryWait ∧ policy.maxAttempts ≤ row.attemptCount
  | _ => False

instance {policy : OutboxPolicy} {system : System} :
    (call : Call) → Decidable (call.Overdraws policy system)
  | .claimOutbox owner limit locked => inferInstanceAs (Decidable (owner ≠ "" ∧
      (∀ count ∈ limit, 1 ≤ count ∧ count ≤ 100) ∧ ∃ row ∈ system.db.pickOutbox limit locked,
        row.state ≠ .retryWait ∧ policy.maxAttempts ≤ row.attemptCount))
  | .startProcess .. | .acceptSignal .. | .reconcileInbox .. | .claimJobs .. | .finishJob ..
  | .failJob .. | .work .. | .invoke .. | .succeedOutbox .. | .failOutbox .. => Decidable.isFalse id

theorem Db.pickOutbox_mem {db : Db} {limit : Option Int} {locked : Nat → Bool} {row : OutboxRow}
    (picked : row ∈ db.pickOutbox limit locked) : row ∈ db.delivery.outbox := by
  have inside := (Table.takeLimit_sublist limit _).subset picked
  have listed := (List.mem_filter.mp inside).1
  exact (List.mem_filter.mp ((List.perm_insertionSort _ _).mem_iff.mp listed)).1

theorem Db.leaseOutbox_within {db : Db} {policy : OutboxPolicy} (ledger : db.Ledger)
    (sound : db.OutboxSound policy) (within : db.WithinPolicy policy) (owner : String)
    (limit : Option Int) (locked : Nat → Bool) :
    (db.leaseOutbox owner (db.pickOutbox limit locked)).WithinPolicy policy ↔
      ¬ ∃ row ∈ db.pickOutbox limit locked,
        row.state ≠ .retryWait ∧ policy.maxAttempts ≤ row.attemptCount := by
  constructor
  · rintro bounded ⟨row, picked, _, spent⟩
    have raised := bounded _ (Table.mem_update.mpr ⟨row, Db.pickOutbox_mem picked, rfl⟩)
    have hit : ((db.pickOutbox limit locked).any fun claimed => claimed.id = row.id) = true :=
      List.any_eq_true.mpr ⟨row, picked, by simp⟩
    simp only [hit, if_true, Nat.cast_add, Nat.cast_one] at raised
    omega
  · intro left row member
    obtain ⟨old, oldMember, rfl⟩ := Table.mem_update.mp member
    split
    · rename_i hit
      obtain ⟨claimed, picked, same⟩ := List.any_eq_true.mp hit
      obtain rfl := Table.key_unique ledger.outboxIds (Db.pickOutbox_mem picked) oldMember
        (of_decide_eq_true same)
      have remains : (claimed.attemptCount : Int) < policy.maxAttempts := by
        by_cases waits : claimed.state = .retryWait
        · exact (sound.rows claimed oldMember).remains waits
        · by_contra spent
          exact left ⟨claimed, picked, waits, by omega⟩
      simp only [Nat.cast_add, Nat.cast_one]
      omega
    · exact within old oldMember

theorem Db.CountsKept.within {db later : Db} {policy : OutboxPolicy} (kept : db.CountsKept later)
    (allows : 0 ≤ policy.maxAttempts) (within : db.WithinPolicy policy) :
    later.WithinPolicy policy := by
  intro row member
  rcases kept row member with none | ⟨old, oldMember, same⟩
  · rw [none]
    exact allows
  · rw [← same]
    exact within old oldMember

/-- One call keeps the bound exactly when it does not overdraw. -/
theorem step_within {policy : OutboxPolicy} (allows : 0 ≤ policy.maxAttempts) {system : System}
    (steady : system.db.Steady) (sound : system.db.OutboxSound policy)
    (within : system.db.WithinPolicy policy) (call : Call) :
    ¬ call.Overdraws policy system ↔ (step system call).db.WithinPolicy policy := by
  by_cases claims : ∃ owner limit locked, call = .claimOutbox owner limit locked
  · obtain ⟨owner, limit, locked, rfl⟩ := claims
    simp only [Call.Overdraws, step, Call.enabled, if_true, execDb, claimOutbox]
    by_cases named : owner = ""
    · simp [named, Except.toOption, within]
    by_cases refused : (limit.any fun count => count < 1 ∨ count > 100) = true
    · have outside : ¬ ∀ count ∈ limit, 1 ≤ count ∧ count ≤ 100 := by
        simp only [Option.any_eq_true, decide_eq_true_eq] at refused
        obtain ⟨count, given, wide⟩ := refused
        intro inside
        have := inside count given
        omega
      simp only [named, refused, if_true, if_false, Except.toOption, Option.map_none,
        Option.getD_none, outside, false_and, and_false, not_false_eq_true, within]
    · have inside : ∀ count ∈ limit, 1 ≤ count ∧ count ≤ 100 := by
        rintro count rfl
        simp only [Option.any_some, decide_eq_true_eq] at refused
        omega
      simp only [named, refused, if_false, Except.toOption, Option.map_some, Option.getD_some,
        ne_eq, not_false_eq_true, true_and, Bool.false_eq_true]
      rw [and_iff_right inside]
      exact (Db.leaseOutbox_within steady.ledger sound within owner limit locked).symm
  · have other : ∀ owner limit locked, call ≠ .claimOutbox owner limit locked :=
      fun owner limit locked same => claims ⟨owner, limit, locked, same⟩
    have silent : ¬ call.Overdraws policy system := by
      cases call with
      | claimOutbox owner limit locked => exact absurd rfl (other owner limit locked)
      | _ => exact id
    refine iff_of_true silent ?_
    simp only [step]
    split
    · cases returned : execDb system.db call with
      | none => exact within
      | some later => exact (execDb_countsKept steady other returned).within allows within
    · exact within

namespace Seed

def tens (tick : Nat) : Time := tick * 10000000

def dispatch : Call := .claimOutbox "dispatcher" (some 10) fun _ => false

def abandoned (leases : Nat) : List Call := prepared ++ List.replicate leases dispatch

end Seed

/-- The rows of the outbox are leased at most as often as the policy allows in exactly the runs
that never overdraw it, and no row waits for a retry without a time for it. -/
theorem delivery_attempts_bounded (config : Config) (policy : OutboxPolicy)
    (configured : config.outboxPolicy = some policy) (clock : Nat → Time)
    (digest : String → String) (calls : List Call) :
    ((∀ done, done <+: calls → (reached config clock digest done).db.WithinPolicy policy) ↔
      (0 ≤ policy.maxAttempts ∧ Runs.Guarded step (fun system call => ¬ call.Overdraws policy system)
        (fresh config clock digest) calls) ∨
      ∀ done, done <+: calls → (reached config clock digest done).db.delivery.outbox = []) ∧
    ∀ row ∈ (reached config clock digest calls).db.delivery.outbox,
      row.leaseVersion = row.attemptCount ∧
        (row.state = .retryWait → row.nextAttemptAt ≠ none) := by
  refine ⟨?_, fun row member => ?_⟩
  · by_cases allows : 0 ≤ policy.maxAttempts
    · have exactly := Runs.guarded_iff_safe
        (fun system : System => system.db.Steady ∧ system.db.OutboxSound policy)
        (fun system => system.db.WithinPolicy policy) ?_
        (fun system call held within => step_within allows held.1 held.2 within call) calls
        (fresh config clock digest)
        ⟨initial_steady, reached_outboxSound configured clock digest []⟩
        (by simp [Db.WithinPolicy, fresh, Db.initial])
      · rw [and_iff_right allows, ← exactly]
        refine ⟨.inl, ?_⟩
        rintro (bounded | empty)
        · exact bounded
        · intro done before row member
          rw [empty done before] at member
          cases member
      · rintro system call ⟨steady, sound⟩
        refine ⟨(step_moves steady call).steady steady, ?_⟩
        exact (step_moves steady call).outboxSound steady sound
    · rw [or_iff_right fun left => allows left.1]
      constructor
      · intro bounded done before
        refine List.eq_nil_iff_forall_not_mem.mpr fun row member => allows ?_
        exact Int.le_trans (Int.natCast_nonneg _) (bounded done before row member)
      · intro empty done before row member
        rw [empty done before] at member
        cases member
  · have sound := (reached_outboxSound configured clock digest calls).rows row member
    exact ⟨sound.leases, sound.putOff⟩

theorem delivery_attempts_bounded_abandoned :
    ∃ row ∈ (reached Seed.config Seed.tens id (Seed.abandoned 3)).db.delivery.outbox,
      row.attemptCount = 3 ∧ row.leaseVersion = 3 ∧
        (row.state = .retryWait → row.nextAttemptAt ≠ none) := by
  have leased : ∃ row ∈ (reached Seed.config Seed.tens id (Seed.abandoned 3)).db.delivery.outbox,
      row.attemptCount = 3 := by decide +kernel
  obtain ⟨row, member, count⟩ := leased
  have bounded := delivery_attempts_bounded Seed.config ⟨3, [200, 400, 800]⟩ rfl Seed.tens id
    (Seed.abandoned 3)
  obtain ⟨leases, putOff⟩ := bounded.2 row member
  exact ⟨row, member, count, leases.trans count, putOff⟩

/-- The fourth dispatcher takes over the third lease of a row that may be tried three times. -/
theorem expired_lease_taken_over :
    ¬ (reached Seed.config Seed.tens id (Seed.abandoned 4)).db.WithinPolicy ⟨3, [200, 400, 800]⟩ := by
  have overdrawn : ∃ row ∈
      (reached Seed.config Seed.tens id (Seed.abandoned 4)).db.delivery.outbox,
      row.attemptCount = 4 := by decide +kernel
  obtain ⟨row, member, count⟩ := overdrawn
  intro within
  have bound := within row member
  rw [count] at bound
  exact absurd bound (by decide)

end PaymentWorkflow
