import PaymentWorkflow.BudgetProofs
import PaymentWorkflow.WorldProofs

/-!
Every live job comes up for a claim, once the clock has gone far enough, as long as every claim
gives its leases a duration.
-/

namespace PaymentWorkflow

structure Job.Timed (job : Job) : Prop where
  due : job.state = .ready ∨ job.state = .retryWait → job.nextAttemptAt ≠ none
  counted : job.state = .leased → 1 ≤ job.attemptCount

def Job.Lapses (job : Job) : Prop := job.state = .leased → job.leaseUntil ≠ none

def Db.EveryJob (db : Db) (holds : Job → Prop) : Prop := ∀ job ∈ db.workflow.jobs, holds job

namespace Job

variable {job : Job}

theorem Timed.of_ended (ended : job.state.live = false) : job.Timed := by
  constructor
  · rintro (state | state) <;> rw [state] at ended <;> cases ended
  · intro state
    rw [state] at ended
    cases ended

theorem Timed.of_due (state : job.state = .ready ∨ job.state = .retryWait)
    (due : job.nextAttemptAt ≠ none) : job.Timed := by
  refine ⟨fun _ => due, ?_⟩
  intro leased
  rcases state with state | state <;> rw [state] at leased <;> cases leased

theorem Timed.waits (timed : job.Timed) (state : job.state = .ready ∨ job.state = .retryWait) :
    ∃ late, ∀ reading, late ≤ reading → job.claimableAt reading = true := by
  obtain ⟨due, at_⟩ := Option.ne_none_iff_exists'.mp (timed.due state)
  refine ⟨due, fun reading reached => ?_⟩
  simp [claimableAt, state, at_, reached]

theorem Timed.claimable (timed : job.Timed) (lapses : job.Lapses) (live : job.state.live = true) :
    ∃ late, ∀ reading, late ≤ reading → job.claimableAt reading = true := by
  cases state : job.state with
  | ready => exact timed.waits (.inl state)
  | retryWait => exact timed.waits (.inr state)
  | leased =>
      obtain ⟨expiry, until_⟩ := Option.ne_none_iff_exists'.mp (lapses state)
      refine ⟨expiry + 1, fun reading reached => ?_⟩
      have past : expiry < reading := Int.add_one_le_iff.mp reached
      simp [claimableAt, expiredAt, state, until_, past]
  | succeeded => simp [state, JobState.live] at live
  | dead => simp [state, JobState.live] at live

theorem not_claimable (state : job.state = .leased) (endless : job.leaseUntil = none)
    (reading : Time) : job.claimableAt reading = false := by
  simp [claimableAt, expiredAt, state, endless]

end Job

/-- The delays of an accepted map reach as far as `fail_job` looks one up to use it. -/
theorem Retry.Valid.delayAt {retry : Retry} {most count : Nat} (valid : retry.Valid most)
    (counted : 1 ≤ count) (remains : count < most) :
    ∃ delay, retry.delaysMs[count - 1]? = some delay ∧ retry.delayAt count = some delay := by
  have bound : count - 1 < retry.delaysMs.length := by
    have length := valid.2.2.2
    omega
  refine ⟨retry.delaysMs[count - 1], List.getElem?_eq_getElem bound, ?_⟩
  rw [Retry.delayAt, if_neg (by omega)]
  exact List.getElem?_eq_getElem bound

namespace Db.EveryJob

variable {db later : Db} {holds : Job → Prop}

theorem of_eq (every : db.EveryJob holds) (same : later.workflow.jobs = db.workflow.jobs) :
    later.EveryJob holds := by
  intro job member
  exact every job (same ▸ member)

theorem update (every : db.EveryJob holds) {jobId : Nat} {change : Job → Job}
    (jobs : later.workflow.jobs = Table.update (fun row => row.id = jobId) change db.workflow.jobs)
    (changed : ∀ row, holds (change row)) : later.EveryJob holds := by
  intro job member
  rw [jobs] at member
  obtain ⟨old, oldMember, rfl⟩ := Table.mem_update.mp member
  by_cases hit : old.id = jobId
  · simp only [hit, decide_true, if_true]
    exact changed old
  · simp only [hit, decide_false, Bool.false_eq_true, if_false]
    exact every old oldMember

theorem place (every : db.EveryJob Job.Timed) (processId : Nat) (definition : StepDefinition) :
    (db.placeStep processId definition).EveryJob Job.Timed := by
  intro job member
  rw [Db.placeStep_jobs] at member
  rcases List.mem_append.mp member with old | new
  · exact every job old
  · simp only [Db.placedJobs] at new
    split at new
    · simp only [List.mem_singleton] at new
      subst new
      exact .of_due (.inl rfl) (Option.some_ne_none _)
    · simp at new

end Db.EveryJob

/-- The delay of a retry that `fail_job` schedules is one of the delays of the task. -/
theorem Db.EveryJob.retry {db : Db} (timed : db.EveryJob Job.Timed) (sound : db.Sound)
    (faithful : db.config.Faithful) {job : Job} (member : job ∈ db.workflow.jobs)
    (leased : job.state = .leased)
    (remains : ((db.retryOf job).1.any fun most => (job.attemptCount : Int) < most) = true) :
    ∃ definition, db.taskOf job = some definition ∧ ∃ delay,
      definition.task.retry.delaysMs[job.attemptCount - 1]? = some delay ∧
        (db.retryOf job).2 = some delay := by
  obtain ⟨definition, defined, pinned⟩ := sound.task faithful member (by rw [leased]; rfl)
  obtain ⟨most, valid⟩ := faithful.retry defined
  rw [Db.retryOf_eq pinned] at remains ⊢
  simp only [valid.1, Option.any_some, decide_eq_true_eq, Int.ofNat_lt] at remains
  exact ⟨definition, pinned, valid.delayAt ((timed job member).counted leased) remains⟩

theorem EngineMove.timed {processId : Nat} {db later : Db} (move : EngineMove processId db later)
    (sound : db.Sound) (faithful : db.config.Faithful) (timed : db.EveryJob Job.Timed) :
    later.EveryJob Job.Timed := by
  cases move with
  | ticked | swept | applied | stored => exact timed.of_eq rfl
  | started =>
      refine Db.EveryJob.place ?_ _ _
      exact timed.of_eq rfl
  | signalled =>
      refine Db.EveryJob.place ?_ _ _
      exact timed.of_eq rfl
  | leased owner leaseMs =>
      refine timed.update rfl fun row => ⟨?_, fun _ => Nat.le_add_left 1 _⟩
      rintro (state | state) <;> cases state
  | disabled => exact timed.update rfl fun row => .of_ended rfl
  | finished =>
      refine Db.EveryJob.place ?_ _ _
      exact timed.update rfl fun row => .of_ended rfl
  | retried errorCode nextAttemptAt member held remains delayed =>
      refine timed.update rfl fun row => .of_due (.inr rfl) ?_
      obtain ⟨_, _, delay, _, looked⟩ :=
        timed.retry sound faithful member (held_leased held).1 remains
      rw [delayed, looked]
      exact Option.some_ne_none _
  | died => exact timed.update rfl fun row => .of_ended rfl
  | decided =>
      refine Db.EveryJob.place ?_ _ _
      exact timed.of_eq rfl

theorem reached_timed {config : Config} (faithful : config.Faithful) (clock : Nat → Time)
    (digest : String → String) (calls : List Call) :
    (reached config clock digest calls).db.config.Faithful ∧
      (reached config clock digest calls).db.EveryJob Job.Timed := by
  refine reached_invariant (fun db => db.config.Faithful ∧ db.EveryJob Job.Timed) ?_ ?_ ?_ ?_ calls
  · intro processId before after sound _ held move
    exact ⟨move.config_eq ▸ held.1, move.timed sound held.1 held.2⟩
  · intro before after _ _ held move
    exact ⟨move.config_eq ▸ held.1, held.2.of_eq (by rw [move.workflow_eq])⟩
  · intro target operation before after _ _ held move
    exact ⟨move.config_eq ▸ held.1, held.2.of_eq (by rw [move.workflow_eq])⟩
  · exact ⟨faithful, by simp [Db.EveryJob, Db.initial]⟩

/-! The ends of the leases. -/

def Call.Limits : Call → Prop
  | .claimJobs _ _ leaseMs _ => leaseMs ≠ none
  | _ => True

instance : (call : Call) → Decidable call.Limits
  | .claimJobs _ _ leaseMs _ => inferInstanceAs (Decidable (leaseMs ≠ none))
  | .startProcess .. | .acceptSignal .. | .reconcileInbox .. | .finishJob .. | .failJob ..
  | .work .. | .invoke .. | .claimOutbox .. | .succeedOutbox .. | .failOutbox .. => .isTrue trivial

section Leases

variable {db later : Db}

theorem JobsAdded.lapses (added : JobsAdded db later) (every : db.EveryJob Job.Lapses) :
    later.EveryJob Job.Lapses := by
  obtain ⟨more, jobs, _, facts⟩ := added.jobs
  intro job member leased
  rw [jobs] at member
  rcases List.mem_append.mp member with old | new
  · exact every job old leased
  · rw [(facts job new).1] at leased
    cases leased

theorem finishJob_lapses (every : db.EveryJob Job.Lapses) {jobId : Nat}
    {owner outcome : Option String} {leaseVersion : Option Int} {reply : Option ProcessState}
    (returned : finishJob db jobId owner leaseVersion outcome = .ok (later, reply)) :
    later.EveryJob Job.Lapses := by
  obtain ⟨job, _, _, added⟩ := finishJob_jobs returned
  refine added.lapses (every.update rfl fun row leased => ?_)
  cases leased

theorem failJob_lapses (every : db.EveryJob Job.Lapses) {jobId : Nat}
    {owner errorCode : Option String} {leaseVersion : Option Int} {retryable : Bool}
    {reply : FailReply}
    (returned : failJob db jobId owner leaseVersion errorCode retryable = .ok (later, reply)) :
    later.EveryJob Job.Lapses := by
  simp only [failJob] at returned
  split at returned
  · simp at returned
  split at returned
  · simp at returned
  split at returned
  all_goals
    cases returned
    refine every.update rfl fun row leased => ?_
    cases leased

theorem claimOne_lapses (every : db.EveryJob Job.Lapses) {owner : String} {leaseMs : Option Int}
    (limited : leaseMs ≠ none) {claimed handed : List ClaimedJob} {job : Job}
    (returned : claimOne owner leaseMs (db, claimed) job = .ok (later, handed)) :
    later.EveryJob Job.Lapses := by
  obtain ⟨leased, lease, rest⟩ := Runs.bind_eq_ok.mp returned
  have leasedEq : leased = db.leaseJob owner leaseMs job := by
    simp only [leaseJob] at lease
    split at lease
    · exact (Except.ok.inj lease).symm
    · simp at lease
  subst leasedEq
  have first : (db.leaseJob owner leaseMs job).EveryJob Job.Lapses := by
    refine every.update rfl fun row _ => ?_
    obtain ⟨count, rfl⟩ := Option.ne_none_iff_exists'.mp limited
    exact Option.some_ne_none _
  have disabled : ∀ attemptId,
      ((db.leaseJob owner leaseMs job).disableJob job attemptId).EveryJob Job.Lapses := by
    refine fun attemptId => first.update rfl fun row leased => ?_
    cases leased
  simp only at rest
  split at rest
  · split at rest
    · cases rest
      exact first
    · split at rest
      · split at rest
        · cases rest
          exact first
        · cases rest
          exact disabled _
      · cases rest
        exact disabled _
  · cases rest
    exact first

theorem claimAll_lapses {owner : String} {leaseMs : Option Int} (limited : leaseMs ≠ none) :
    ∀ (picked : List Job) (db later : Db) (claimed handed : List ClaimedJob),
      db.EveryJob Job.Lapses →
        picked.foldlM (claimOne owner leaseMs) (db, claimed) = .ok (later, handed) →
          later.EveryJob Job.Lapses := by
  intro picked
  induction picked with
  | nil =>
      intro db later claimed handed every returned
      cases returned
      exact every
  | cons job rest ih =>
      intro db later claimed handed every returned
      simp only [List.foldlM_cons] at returned
      obtain ⟨⟨next, between⟩, first, continued⟩ := Runs.bind_eq_ok.mp returned
      exact ih next later between handed (claimOne_lapses every limited first) continued

theorem claimJobs_lapses (every : db.EveryJob Job.Lapses) {owner : String}
    {batch leaseMs : Option Int} {locked : Nat → Bool} {claimed : List ClaimedJob}
    (limited : leaseMs ≠ none)
    (returned : claimJobs db owner batch leaseMs locked = .ok (later, claimed)) :
    later.EveryJob Job.Lapses := by
  simp only [claimJobs] at returned
  split at returned
  · simp at returned
  split at returned
  · simp at returned
  split at returned
  · simp at returned
  have swept : Db.EveryJob { db.sweepExpired with
      ticks := db.sweepExpired.ticks + db.sweepExpired.nextId } Job.Lapses := every.of_eq rfl
  exact claimAll_lapses limited _ _ _ _ _ swept returned

theorem step_lapses {system : System} (every : system.db.EveryJob Job.Lapses) {call : Call} (limits : call.Limits) :
    (step system call).db.EveryJob Job.Lapses := by
  simp only [step]
  split
  · cases returned : execDb system.db call with
    | none => exact every
    | some later =>
        have foreign : call.isForeign = true → later.EveryJob Job.Lapses :=
          fun foreign => (foreign_added foreign returned).lapses every
        cases call with
        | claimJobs owner batch leaseMs locked =>
            obtain ⟨claimed, ok⟩ := returned_db returned
            exact claimJobs_lapses every limits ok
        | finishJob jobId owner leaseVersion outcome =>
            obtain ⟨reply, ok⟩ := returned_db returned
            exact finishJob_lapses every ok
        | failJob jobId owner leaseVersion errorCode retryable =>
            obtain ⟨reply, ok⟩ := returned_db returned
            exact failJob_lapses every ok
        | work claimed =>
            simp only [execDb] at returned
            cases worked : workTransaction system.db claimed with
            | error failure => simp [worked, Except.toOption] at returned
            | ok finished =>
                simp only [worked, Except.toOption, Option.some.injEq] at returned
                subst returned
                obtain ⟨acted, outcome, reply, ran, completed⟩ := workTransaction_cases worked
                exact finishJob_lapses ((runAction_added ran).lapses every) completed
        | _ => exact foreign rfl
  · exact every

theorem reached_lapses {config : Config} {clock : Nat → Time} {digest : String → String}
    {calls : List Call} (limits : ∀ call ∈ calls, call.Limits) :
    (reached config clock digest calls).db.EveryJob Job.Lapses := by
  have guarded : ∀ (calls : List Call) (system : System), (∀ call ∈ calls, call.Limits) →
      Runs.Guarded step (fun _ call => call.Limits) system calls := by
    intro calls
    induction calls with
    | nil => exact fun _ _ => trivial
    | cons call rest ih =>
        exact fun system limits => ⟨limits call List.mem_cons_self,
          ih _ fun other member => limits other (List.mem_cons_of_mem _ member)⟩
  exact Runs.guarded_invariant (fun system => system.db.EveryJob Job.Lapses)
    (fun system call kept fits => step_lapses kept fits) calls (fresh config clock digest)
    (by simp [Db.EveryJob, fresh, Db.initial]) (guarded calls _ limits)

end Leases

/-- On accepted maps no job waits for a retry that never comes due, and the delay of every retry
`fail_job` schedules is found in `delays_ms`. Where every claim limits its leases no live job is
one that `claim_jobs` would never select; a lease without a limit never comes up again. -/
theorem live_jobs_come_up {config : Config} (published : Published config) (clock : Nat → Time)
    (digest : String → String) (calls : List Call) :
    ∀ job ∈ (reached config clock digest calls).db.workflow.jobs,
      (job.state = .ready ∨ job.state = .retryWait → job.nextAttemptAt ≠ none ∧
        ∃ late, ∀ reading, late ≤ reading → job.claimableAt reading = true) ∧
      ((∀ call ∈ calls, call.Limits) →
        (job.state = .leased → job.leaseUntil ≠ none) ∧
          (job.state.live = true →
            ∃ late, ∀ reading, late ≤ reading → job.claimableAt reading = true)) ∧
      (job.state = .leased → job.leaseUntil = none →
        ∀ reading, job.claimableAt reading = false) ∧
      (job.state = .leased →
        ((reached config clock digest calls).db.retryOf job).1.any
          (fun most => (job.attemptCount : Int) < most) = true →
        ∃ definition, (reached config clock digest calls).db.taskOf job = some definition ∧
          ∃ delay, definition.task.retry.delaysMs[job.attemptCount - 1]? = some delay ∧
            ((reached config clock digest calls).db.retryOf job).2 = some delay) := by
  intro job member
  obtain ⟨faithful, timed⟩ := reached_timed published.faithful clock digest calls
  have sound := (@reached_steady config clock digest calls).calm.sound
  refine ⟨fun state => ⟨(timed job member).due state, (timed job member).waits state⟩, ?_,
    Job.not_claimable, fun leased remains => timed.retry sound faithful member leased remains⟩
  intro limits
  have lapses : job.Lapses := reached_lapses limits job member
  exact ⟨lapses, (timed job member).claimable lapses⟩

theorem live_jobs_come_up_retried :
    ∃ job ∈ (reached Seed.config Seed.seconds id
        [Seed.smoke, Seed.lease, Seed.failure 1]).db.workflow.jobs,
      job.state = .retryWait ∧ job.nextAttemptAt ≠ none ∧
        ∃ late, ∀ reading, late ≤ reading → job.claimableAt reading = true := by
  have waiting : ∃ job ∈ (reached Seed.config Seed.seconds id
      [Seed.smoke, Seed.lease, Seed.failure 1]).db.workflow.jobs, job.state = .retryWait := by
    decide +kernel
  obtain ⟨job, member, state⟩ := waiting
  have comesUp := live_jobs_come_up Seed.published Seed.seconds id
    [Seed.smoke, Seed.lease, Seed.failure 1] job member
  exact ⟨job, member, state, (comesUp.1 (.inr state)).1,
    (comesUp.2.1 (by decide)).2 (by rw [state]; rfl)⟩

/-- `fail_job` reads the delay before it compares, and for the last attempt there is none; a
claim with a NULL for the duration leases its job for ever. -/
theorem last_attempt_has_no_delay :
    (¬ ∀ job ∈ (reached Seed.config Seed.seconds id
        [Seed.smoke, Seed.lease, Seed.lease, Seed.lease]).db.workflow.jobs,
      job.state = .leased → ((reached Seed.config Seed.seconds id
        [Seed.smoke, Seed.lease, Seed.lease, Seed.lease]).db.retryOf job).2 ≠ none) ∧
    ¬ ∀ job ∈ (reached Seed.config Seed.seconds id
        [Seed.smoke, .claimJobs "worker" (some 1) none fun _ => false]).db.workflow.jobs,
      job.state = .leased → job.leaseUntil ≠ none := by
  decide +kernel

end PaymentWorkflow
