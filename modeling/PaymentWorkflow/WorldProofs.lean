import PaymentWorkflow.JobTable
import PaymentWorkflow.SystemRuns
import PaymentWorkflow.WorldCore

/-! The effect of a job's action is committed with the job's success, and only then. -/

namespace PaymentWorkflow

structure JobKeys (db : Db) : Prop where
  unique : (db.workflow.jobs.map Job.id).Nodup
  bound : ∀ job ∈ db.workflow.jobs, job.id < db.nextId

def Db.succeeded (db : Db) (jobId : Nat) : Bool :=
  db.workflow.jobs.any fun job => job.id = jobId ∧ job.state = .succeeded

theorem Db.succeeded_iff {db : Db} {jobId : Nat} :
    db.succeeded jobId = true ↔
      ∃ job ∈ db.workflow.jobs, job.id = jobId ∧ job.state = .succeeded := by
  simp [Db.succeeded]

def Job.succeed (job : Job) : Job := { job with state := .succeeded, leaseUntil := none }

@[simp] theorem Job.succeed_id (job : Job) : job.succeed.id = job.id := rfl

@[simp] theorem Job.succeed_state (job : Job) : job.succeed.state = .succeeded := rfl

/-! Changes of the committed database that respect the locks of the open sessions. -/

structure Stays (locked : Nat → Bool) (db later : Db) : Prop where
  keys : JobKeys later
  nextId : db.nextId ≤ later.nextId
  held : ∀ job ∈ db.workflow.jobs, locked job.id = true → job ∈ later.workflow.jobs
  succeeded : ∀ jobId, later.succeeded jobId = db.succeeded jobId

section Stays

variable {db later : Db} {locked : Nat → Bool}

theorem JobsAdded.keys (added : JobsAdded db later) (keys : JobKeys db) : JobKeys later := by
  obtain ⟨more, jobs, unique, facts⟩ := added.jobs
  have bound := added.nextId
  constructor
  · rw [jobs, List.map_append, List.nodup_append]
    refine ⟨keys.unique, unique, ?_⟩
    intro id member otherId otherMember same
    obtain ⟨job, jobMember, rfl⟩ := List.mem_map.mp member
    obtain ⟨other, otherJobMember, rfl⟩ := List.mem_map.mp otherMember
    have old := keys.bound job jobMember
    have new := (facts other otherJobMember).2.1
    omega
  · intro job member
    rw [jobs] at member
    rcases List.mem_append.mp member with old | new
    · have := keys.bound job old
      omega
    · exact (facts job new).2.2

theorem JobsAdded.stays (added : JobsAdded db later) (keys : JobKeys db) :
    Stays locked db later where
  keys := added.keys keys
  nextId := added.nextId
  held := by
    obtain ⟨more, jobs, _, _⟩ := added.jobs
    intro job member _
    rw [jobs]
    exact List.mem_append_left _ member
  succeeded := by
    obtain ⟨more, jobs, _, facts⟩ := added.jobs
    intro jobId
    have none : (more.any fun job => job.id = jobId ∧ job.state = .succeeded) = false := by
      simp only [List.any_eq_false, decide_eq_true_eq, not_and]
      intro job member _
      rw [(facts job member).1]
      simp
    rw [Db.succeeded, jobs, List.any_append, none, Bool.or_false, Db.succeeded]

theorem JobsChanged.stays {touched : Nat → Prop} (changed : JobsChanged touched db later)
    (keys : JobKeys db) (live : ∀ id, touched id → ∃ job ∈ db.workflow.jobs, job.id = id ∧
      job.state.live = true) (unlocked : ∀ id, touched id → locked id = false) :
    Stays locked db later where
  keys := by
    refine ⟨changed.ids ▸ keys.unique, ?_⟩
    intro job member
    have key := List.mem_map_of_mem (f := Job.id) member
    rw [changed.ids] at key
    obtain ⟨old, oldMember, same⟩ := List.mem_map.mp key
    exact same ▸ Nat.lt_of_lt_of_le (keys.bound old oldMember) changed.nextId
  nextId := changed.nextId
  held := by
    intro job member hit
    obtain ⟨row, rowMember, same⟩ := changed.row member
    rcases changed.rows row rowMember with ⟨old, _⟩ | ⟨touches, _⟩
    · exact Table.key_unique keys.unique old member same ▸ rowMember
    · rw [← same, unlocked row.id touches] at hit
      simp at hit
  succeeded := by
    intro jobId
    rw [Bool.eq_iff_iff, Db.succeeded_iff, Db.succeeded_iff]
    constructor
    · rintro ⟨row, rowMember, same, done⟩
      rcases changed.rows row rowMember with ⟨old, _⟩ | ⟨_, notDone⟩
      · exact ⟨row, old, same, done⟩
      · exact absurd done notDone
    · rintro ⟨job, member, same, done⟩
      obtain ⟨row, rowMember, sameRow⟩ := changed.row member
      rcases changed.rows row rowMember with ⟨old, _⟩ | ⟨touches, _⟩
      · obtain rfl := Table.key_unique keys.unique old member sameRow
        exact ⟨row, rowMember, same, done⟩
      · obtain ⟨other, otherMember, sameOther, alive⟩ := live row.id touches
        obtain rfl := Table.key_unique keys.unique otherMember member (sameOther.trans sameRow)
        rw [done] at alive
        simp [JobState.live] at alive

theorem foreign_added {call : Call} (foreign : call.isForeign = true)
    (returned : execDb db call = some later) : JobsAdded db later := by
  cases call with
  | startProcess flowName businessKey data =>
      obtain ⟨reply, ok⟩ := returned_db returned
      exact startProcess_added ok
  | acceptSignal processId signalType messageId payload =>
      obtain ⟨reply, ok⟩ := returned_db returned
      exact jobsAdded_written.acceptSignal (enterStep_adds _) ok
  | reconcileInbox limit locked =>
      obtain ⟨count, ok⟩ := returned_db returned
      simp only [reconcileInbox] at ok
      split at ok
      · simp at ok
      · have added := reconcileBatch_added (db.reconcileBatch limit locked) (db, 0)
        rw [show (db.reconcileBatch limit locked).foldl reconcileOne (db, 0) =
          (later, count) from Except.ok.inj ok] at added
        exact added
  | invoke module action version context payload =>
      obtain ⟨envelope, ok⟩ := returned_db returned
      exact invoke_added ok
  | claimOutbox owner limit locked =>
      obtain ⟨claims, ok⟩ := returned_db returned
      simp only [claimOutbox] at ok
      split at ok
      · simp at ok
      split at ok
      · simp at ok
      cases ok
      exact .of_eq (Nat.le_refl _) rfl rfl
  | succeedOutbox outboxId owner leaseVersion providerPaymentId =>
      cases returned
      exact succeedOutbox_moves.added
  | failOutbox outboxId owner leaseVersion errorCode =>
      cases returned
      exact failOutbox_moves.added
  | claimJobs => simp [Call.isForeign] at foreign
  | finishJob => simp [Call.isForeign] at foreign
  | failJob => simp [Call.isForeign] at foreign
  | work => simp [Call.isForeign] at foreign

end Stays

/-! What an open session has written to the job table. -/

namespace Session

def finishes (session : Session) (row : Job) : Bool :=
  session.phase = .finished ∧ row.id = session.claimed.jobId

structure Sound (session : Session) (db : Db) : Prop where
  writes : ∃ added, session.after.workflow.jobs =
      Table.update session.finishes Job.succeed session.before.workflow.jobs ++ added ∧
    (added.map Job.id).Nodup ∧ ∀ job ∈ added, job.state = .ready ∧
      Table.lookup Job.id job.id session.before.workflow.jobs = none ∧ job.id < db.nextId
  held : session.phase = .finished →
    (∃ job ∈ db.workflow.jobs, job.id = session.claimed.jobId ∧ job.state = .leased) ∧
      ∃ job, session.before.workflow.job? session.claimed.jobId = some job ∧ job.state = .leased

end Session

theorem Db.merge?_jobs {before after current merged : Db}
    (same : Db.merge? before after current = some merged) :
    Table.merge? Job.id before.workflow.jobs after.workflow.jobs current.workflow.jobs =
      some merged.workflow.jobs ∧ merged.nextId = current.nextId := by
  simp only [Db.merge?, Option.bind_eq_bind, Option.bind_eq_some_iff] at same
  obtain ⟨_, _, _, _, jobs, merging, _, _, _, _, _, _, _, _, _, _, _, _, _, _, _, _, _, _, last⟩ :=
    same
  cases last
  exact ⟨merging, rfl⟩

theorem JobKeys.of_append {db : Db} {old added : List Job}
    (jobs : db.workflow.jobs = old ++ added) (oldUnique : (old.map Job.id).Nodup)
    (addedUnique : (added.map Job.id).Nodup) (oldBound : ∀ job ∈ old, job.id < db.nextId)
    (addedBound : ∀ job ∈ added, job.id < db.nextId)
    (apart : ∀ job ∈ added, Table.lookup Job.id job.id old = none) : JobKeys db where
  unique := by
    rw [jobs, List.map_append, List.nodup_append]
    refine ⟨oldUnique, addedUnique, ?_⟩
    intro id member otherId otherMember same
    obtain ⟨job, jobMember, rfl⟩ := List.mem_map.mp member
    obtain ⟨other, otherJobMember, rfl⟩ := List.mem_map.mp otherMember
    exact Table.lookup_eq_none.mp (apart other otherJobMember) job jobMember same
  bound := by
    intro job member
    rw [jobs] at member
    rcases List.mem_append.mp member with isOld | isNew
    · exact oldBound job isOld
    · exact addedBound job isNew

section Merge

variable {session : Session} {db merged : Db}

theorem Session.overwrite_other {before : List Job} {row : Job}
    (other : session.finishes row = false) :
    Table.overwrite Job.id session.finishes Job.succeed before row = row := by
  simp only [Table.overwrite]
  split
  · rename_i found located
    have same := (Table.lookup_mem located).2
    have missed : session.finishes found = false := by
      simpa only [Session.finishes, same] using other
    simp [missed]
  · rfl

/-- A session's writes to the job table, on top of what is committed by now. -/
theorem Session.Sound.merge (sound : session.Sound db) (keys : JobKeys db)
    (same : Db.merge? session.before session.after db = some merged) :
    ∃ added, merged.workflow.jobs = db.workflow.jobs.map (Table.overwrite Job.id session.finishes
        Job.succeed session.before.workflow.jobs) ++ added ∧
      (∀ job ∈ added, job.state = .ready) ∧ JobKeys merged ∧ merged.nextId = db.nextId := by
  obtain ⟨added, after, addedUnique, facts⟩ := sound.writes
  obtain ⟨merging, nextId⟩ := Db.merge?_jobs same
  rw [after] at merging
  obtain ⟨jobs, apart⟩ := Table.merge?_eq Job.succeed_id
    (fun job member => (facts job member).2.1) merging
  have sameId : ∀ row, (Table.overwrite Job.id session.finishes Job.succeed
      session.before.workflow.jobs row).id = row.id :=
    Table.overwrite_key _ Job.succeed_id
  refine ⟨added, jobs, fun job member => (facts job member).1, ?_, nextId⟩
  refine JobKeys.of_append jobs ?_ addedUnique ?_ ?_ ?_
  · rw [List.map_map]
    simpa only [Function.comp_def, sameId] using keys.unique
  · intro job member
    obtain ⟨row, rowMember, rfl⟩ := List.mem_map.mp member
    rw [sameId, nextId]
    exact keys.bound row rowMember
  · intro job member
    rw [nextId]
    exact (facts job member).2.2
  · intro job member
    refine Table.lookup_eq_none.mpr fun row rowMember equal => ?_
    obtain ⟨old, oldMember, rfl⟩ := List.mem_map.mp rowMember
    rw [sameId] at equal
    exact Table.lookup_eq_none.mp (apart job member) old oldMember equal

/-- Before its `finish_job` a session has only added jobs. -/
theorem Session.Sound.view (sound : session.Sound db) (keys : JobKeys db) {outcome : String}
    (acted : session.phase = .acted outcome)
    (same : Db.merge? session.before session.after db = some merged) :
    ∃ added, merged.workflow.jobs = db.workflow.jobs ++ added ∧
      (∀ job ∈ added, job.state = .ready) ∧ JobKeys merged ∧ merged.nextId = db.nextId := by
  obtain ⟨added, jobs, rest⟩ := sound.merge keys same
  refine ⟨added, ?_, rest⟩
  rw [jobs]
  congr 1
  conv_rhs => rw [← List.map_id db.workflow.jobs]
  apply List.map_congr_left
  intro row _
  exact Session.overwrite_other (by simp [Session.finishes, acted])

/-- The rows a commit leaves: its own job is SUCCEEDED, the other jobs are as they were. -/
theorem Session.Sound.commit (sound : session.Sound db) (keys : JobKeys db)
    (finished : session.phase = .finished)
    (same : Db.merge? session.before session.after db = some merged) :
    JobKeys merged ∧ merged.nextId = db.nextId ∧
      (∀ job ∈ db.workflow.jobs, job.id ≠ session.claimed.jobId → job ∈ merged.workflow.jobs) ∧
      (∀ jobId, merged.succeeded jobId =
        (decide (jobId = session.claimed.jobId) || db.succeeded jobId)) := by
  obtain ⟨added, jobs, ready, mergedKeys, nextId⟩ := sound.merge keys same
  obtain ⟨⟨own, ownMember, ownId, ownLeased⟩, found, located, leased⟩ := sound.held finished
  have finishes : ∀ row : Job, session.finishes row = decide (row.id = session.claimed.jobId) := by
    intro row
    simp [Session.finishes, finished]
  have kept : ∀ row ∈ db.workflow.jobs, row.id ≠ session.claimed.jobId →
      row ∈ merged.workflow.jobs := by
    intro row member different
    rw [jobs]
    refine List.mem_append_left _ (List.mem_map.mpr ⟨row, member, ?_⟩)
    exact Session.overwrite_other (by simp [finishes, different])
  have written : ∀ row : Job, row.id = session.claimed.jobId → Table.overwrite Job.id
      session.finishes Job.succeed session.before.workflow.jobs row = found.succeed := by
    intro row equal
    have hit : Table.lookup Job.id row.id session.before.workflow.jobs = some found :=
      equal ▸ located
    have foundId := (Table.lookup_mem hit).2
    have moved : found.succeed ≠ found := by
      intro stays
      have state := congrArg Job.state stays
      rw [leased] at state
      simp at state
    rw [Table.overwrite, hit]
    simp [finishes, foundId, equal, moved]
  refine ⟨mergedKeys, nextId, kept, ?_⟩
  intro jobId
  rw [Bool.eq_iff_iff, Db.succeeded_iff, Bool.or_eq_true, decide_eq_true_eq, Db.succeeded_iff]
  constructor
  · rintro ⟨row, rowMember, rfl, done⟩
    by_cases own : row.id = session.claimed.jobId
    · exact .inl own
    · rw [jobs] at rowMember
      rcases List.mem_append.mp rowMember with old | new
      · obtain ⟨before, beforeMember, equal⟩ := List.mem_map.mp old
        have sameId : row.id = before.id := by
          rw [← equal]
          exact Table.overwrite_key _ Job.succeed_id before
        rw [Session.overwrite_other (by simp [finishes, ← sameId, own])] at equal
        exact .inr ⟨row, equal ▸ beforeMember, rfl, done⟩
      · rw [ready row new] at done
        simp at done
  · rintro (rfl | ⟨row, rowMember, rfl, done⟩)
    · refine ⟨found.succeed, ?_, (Table.lookup_mem located).2, rfl⟩
      rw [jobs]
      exact List.mem_append_left _ (List.mem_map.mpr ⟨own, ownMember, written own ownId⟩)
    · refine ⟨row, kept row rowMember ?_, rfl, done⟩
      intro equal
      obtain rfl := Table.key_unique keys.unique rowMember ownMember (equal.trans ownId.symm)
      rw [done] at ownLeased
      simp at ownLeased

end Merge

/-! The invariant of the workers' world. -/

namespace World

structure Sound (world : World) : Prop where
  keys : JobKeys world.db
  workers : (world.sessions.map Session.worker).Nodup
  sessions : ∀ session ∈ world.sessions, session.Sound world.db
  alone : ∀ left ∈ world.sessions, ∀ right ∈ world.sessions, left.phase = .finished →
    right.phase = .finished → left.claimed.jobId = right.claimed.jobId → left = right
  effects : ∀ jobId, world.effects jobId = if world.db.succeeded jobId then 1 else 0

variable {world : World}

theorem locks_of_finished {session : Session} (member : session ∈ world.sessions)
    (finished : session.phase = .finished) : world.locks session.claimed.jobId = true := by
  simp only [locks, List.any_eq_true, decide_eq_true_eq]
  exact ⟨session, member, finished, rfl⟩

theorem session?_mem {worker : Nat} {session : Session}
    (found : world.session? worker = some session) :
    session ∈ world.sessions ∧ session.worker = worker := Table.lookup_mem found

theorem mem_close {worker : Nat} {session : Session} :
    session ∈ (world.close worker).sessions ↔
      session ∈ world.sessions ∧ session.worker ≠ worker := by
  simp [close]

theorem Sound.close (sound : world.Sound) (worker : Nat) : (world.close worker).Sound where
  keys := sound.keys
  workers := sound.workers.sublist (List.filter_sublist.map _)
  sessions := fun session member => sound.sessions session (mem_close.mp member).1
  alone := fun left leftMember right rightMember => sound.alone left (mem_close.mp leftMember).1
    right (mem_close.mp rightMember).1
  effects := sound.effects

theorem Sound.stays (sound : world.Sound) {later : Db} (handed : List ClaimedJob)
    (stays : Stays world.locks world.db later) :
    Sound { world with db := later, handed := handed } where
  keys := stays.keys
  workers := sound.workers
  sessions := by
    intro session member
    obtain ⟨added, after, unique, facts⟩ := (sound.sessions session member).writes
    constructor
    · refine ⟨added, after, unique, fun job jobMember => ?_⟩
      obtain ⟨ready, fresh, bound⟩ := facts job jobMember
      exact ⟨ready, fresh, Nat.lt_of_lt_of_le bound stays.nextId⟩
    · intro finished
      obtain ⟨⟨job, jobMember, same, leased⟩, found⟩ :=
        (sound.sessions session member).held finished
      refine ⟨⟨job, stays.held job jobMember ?_, same, leased⟩, found⟩
      rw [same]
      exact locks_of_finished member finished
  alone := sound.alone
  effects := by
    intro jobId
    show world.effects jobId = _
    rw [sound.effects, stays.succeeded]

theorem Sound.advanced (sound : world.Sound) {later : Db} (nextId : world.db.nextId ≤ later.nextId) :
    Sound { world with db := world.db.advanced later } :=
  sound.stays world.handed
    ((@JobsAdded.of_eq world.db (world.db.advanced later) nextId rfl rfl).stays sound.keys)

theorem Sound.open_ (sound : world.Sound) {session : Session}
    (idle : ∀ other ∈ world.sessions, other.worker ≠ session.worker)
    (opened : session.Sound world.db)
    (alone : session.phase = .finished → world.locks session.claimed.jobId = false) :
    Sound { world with sessions := world.sessions ++ [session] } where
  keys := sound.keys
  workers := by
    rw [List.map_append, List.nodup_append]
    refine ⟨sound.workers, by simp, ?_⟩
    intro worker member other otherMember same
    obtain ⟨old, oldMember, rfl⟩ := List.mem_map.mp member
    simp only [List.map_cons, List.map_nil, List.mem_singleton] at otherMember
    exact idle old oldMember (same.trans otherMember)
  sessions := by
    intro other member
    rcases List.mem_append.mp member with old | new
    · exact sound.sessions other old
    · simp only [List.mem_singleton] at new
      exact new ▸ opened
  alone := by
    have unlocked : ∀ other ∈ world.sessions, other.phase = .finished →
        session.phase = .finished → other.claimed.jobId ≠ session.claimed.jobId := by
      intro other member finished sessionFinished same
      have locked := locks_of_finished member finished
      rw [same, alone sessionFinished] at locked
      simp at locked
    intro left leftMember right rightMember leftFinished rightFinished same
    rcases List.mem_append.mp leftMember with leftOld | leftNew <;>
      rcases List.mem_append.mp rightMember with rightOld | rightNew
    · exact sound.alone left leftOld right rightOld leftFinished rightFinished same
    · simp only [List.mem_singleton] at rightNew
      subst rightNew
      exact absurd same (unlocked left leftOld leftFinished rightFinished)
    · simp only [List.mem_singleton] at leftNew
      subst leftNew
      exact absurd same.symm (unlocked right rightOld rightFinished leftFinished)
    · simp only [List.mem_singleton] at leftNew rightNew
      rw [leftNew, rightNew]
  effects := sound.effects

theorem Sound.act (sound : world.Sound) (worker : Nat) (claimed : ClaimedJob) :
    (world.act worker claimed).Sound := by
  simp only [World.act]
  split
  · exact sound
  rename_i enabled
  simp only [not_or, Bool.not_eq_true, Option.isSome_eq_false_iff, Option.isNone_iff_eq_none]
    at enabled
  split
  · exact sound
  rename_i acted outcome ran
  have added := runAction_added ran
  refine (sound.advanced added.nextId).open_ (Table.lookup_eq_none.mp enabled.1) ?_ (by simp)
  obtain ⟨more, jobs, unique, facts⟩ := added.jobs
  constructor
  · refine ⟨more, ?_, unique, fun job member => ?_⟩
    · show acted.workflow.jobs = _
      rw [jobs, Table.update_eq_self]
      intro row _
      simp [Session.finishes]
    · obtain ⟨ready, lower, upper⟩ := facts job member
      refine ⟨ready, Table.lookup_eq_none.mpr fun row rowMember same => ?_, upper⟩
      have := sound.keys.bound row rowMember
      omega
  · intro finished
    simp at finished

theorem finished_sound (sound : world.Sound) {session : Session} {outcome : String} {view : Db}
    {finished : Db} {reply : Option ProcessState} (member : session ∈ world.sessions)
    (acted : session.phase = .acted outcome)
    (same : Db.merge? session.before session.after world.db = some view)
    (returned : finishClaimed view session.claimed outcome = .ok (finished, reply)) :
    world.db.nextId ≤ finished.nextId ∧
      Session.Sound { session with before := world.db, after := finished, phase := .finished }
        (world.db.advanced finished) := by
  obtain ⟨added, viewJobs, ready, viewKeys, viewNextId⟩ :=
    (sound.sessions session member).view sound.keys acted same
  obtain ⟨job, found, held, completed⟩ := finishJob_jobs returned
  obtain ⟨jobMember, jobId⟩ := Table.lookup_mem found
  have leased := (held_leased held).1
  have own : job ∈ world.db.workflow.jobs := by
    rw [viewJobs] at jobMember
    rcases List.mem_append.mp jobMember with old | new
    · exact old
    · rw [ready job new] at leased
      simp at leased
  have located : world.db.workflow.job? session.claimed.jobId = some job := by
    rw [← jobId]
    exact Table.lookup_of_mem sound.keys.unique own
  have completedKeys : JobKeys (view.completeJob job (some (session.claimed.leaseVersion : Int))
      (some outcome)) := by
    constructor
    · show ((Table.update _ _ view.workflow.jobs).map Job.id).Nodup
      rw [Table.map_update]
      · exact viewKeys.unique
      · exact fun _ => rfl
    · intro row rowMember
      obtain ⟨old, oldMember, rfl⟩ := Table.mem_update.mp rowMember
      show Job.id (if _ then _ else _) < view.nextId
      split <;> exact viewKeys.bound old oldMember
  have finishedKeys := completed.keys completedKeys
  obtain ⟨more, moreJobs, moreUnique, moreFacts⟩ := completed.jobs
  have addedOther : ∀ row ∈ added, row.id ≠ session.claimed.jobId := by
    intro row rowMember equal
    have rowInView : row ∈ view.workflow.jobs := viewJobs ▸ List.mem_append_right _ rowMember
    have := Table.key_unique viewKeys.unique rowInView jobMember (equal.trans jobId.symm)
    rw [← this, ready row rowMember] at leased
    simp at leased
  have jobs : finished.workflow.jobs = Table.update (fun row => row.id = session.claimed.jobId)
      Job.succeed world.db.workflow.jobs ++ (added ++ more) := by
    rw [moreJobs, ← List.append_assoc]
    congr 1
    show Table.update (fun row => row.id = job.id) Job.succeed view.workflow.jobs = _
    rw [viewJobs, Table.update_append, jobId]
    congr 1
    exact Table.update_eq_self _ _ _ fun row rowMember => by simp [addedOther row rowMember]
  have nextId : world.db.nextId ≤ finished.nextId := viewNextId ▸ completed.nextId
  have unique := finishedKeys.unique
  rw [jobs, List.map_append, List.nodup_append, Table.map_update _ _ _ Job.succeed_id] at unique
  refine ⟨nextId, ?_, fun _ => ⟨⟨job, own, jobId, leased⟩, job, located, leased⟩⟩
  refine ⟨added ++ more, ?_, unique.2.1, ?_⟩
  · rw [jobs]
    congr 1
    apply List.map_congr_left
    intro row _
    simp [Session.finishes]
  · intro row rowMember
    refine ⟨?_, Table.lookup_eq_none.mpr fun old oldMember equal => ?_, ?_⟩
    · rcases List.mem_append.mp rowMember with old | new
      · exact ready row old
      · exact (moreFacts row new).1
    · exact unique.2.2 _ (List.mem_map_of_mem oldMember) _ (List.mem_map_of_mem rowMember) equal
    · exact finishedKeys.bound row (jobs ▸ List.mem_append_right _ rowMember)

theorem Sound.finish (sound : world.Sound) {session : Session} {outcome : String}
    (member : session ∈ world.sessions) (acted : session.phase = .acted outcome)
    (free : world.locks session.claimed.jobId = false) : (world.finish session outcome).Sound := by
  simp only [World.finish]
  split
  · exact sound.close session.worker
  rename_i view same
  split
  · exact sound.close session.worker
  rename_i finished reply returned
  obtain ⟨nextId, written⟩ := finished_sound sound member acted same returned
  have closed := (sound.close session.worker).advanced nextId
  refine @World.Sound.open_ _ closed { session with
    before := world.db, after := finished, phase := .finished } ?_ written ?_
  · intro other otherMember
    exact (mem_close.mp otherMember).2
  · intro _
    simp only [locks, List.any_eq_false, decide_eq_true_eq, not_and] at free ⊢
    intro other otherMember
    exact free other (mem_close.mp otherMember).1

theorem Sound.commit (sound : world.Sound) {session : Session} (member : session ∈ world.sessions)
    (finished : session.phase = .finished) : (world.commit session).Sound := by
  simp only [World.commit]
  split
  · exact sound.close session.worker
  rename_i merged same
  have own := sound.sessions session member
  obtain ⟨keys, nextId, kept, succeeded⟩ := own.commit sound.keys finished same
  have closed := sound.close session.worker
  refine ⟨keys, closed.workers, ?_, closed.alone, ?_⟩
  · intro other otherMember
    have before := closed.sessions other otherMember
    have different := (mem_close.mp otherMember).2
    constructor
    · obtain ⟨added, after, unique, facts⟩ := before.writes
      refine ⟨added, after, unique, ?_⟩
      show ∀ job ∈ added, _ ∧ _ ∧ job.id < merged.nextId
      rw [nextId]
      exact facts
    · intro otherFinished
      obtain ⟨⟨job, jobMember, jobId, leased⟩, found⟩ := before.held otherFinished
      refine ⟨⟨job, kept job jobMember ?_, jobId, leased⟩, found⟩
      intro equal
      have same := sound.alone other (mem_close.mp otherMember).1 session member otherFinished
        finished (jobId.symm.trans equal)
      exact different (by rw [same])
  · intro jobId
    have before := sound.effects jobId
    have free : world.db.succeeded session.claimed.jobId = false := by
      obtain ⟨⟨job, jobMember, same, leased⟩, _⟩ := own.held finished
      rw [← Bool.not_eq_true, Db.succeeded_iff]
      rintro ⟨row, rowMember, equal, done⟩
      obtain rfl := Table.key_unique sound.keys.unique rowMember jobMember (equal.trans same.symm)
      rw [leased] at done
      simp at done
    show ((world.committed ++ [session.claimed]).filter _).length =
      if merged.succeeded jobId then 1 else 0
    rw [succeeded, List.filter_append, List.length_append]
    simp only [World.effects] at before
    rw [before]
    by_cases equal : jobId = session.claimed.jobId
    · subst equal
      simp [free]
    · simp [equal, Ne.symm equal]

theorem Sound.step (sound : world.Sound) (event : Event) : (world.step event).Sound := by
  cases event with
  | claim owner batch leaseMs locked =>
      simp only [World.step]
      split
      · exact sound
      · rename_i claimed handed returned
        refine sound.stays _ ((claimJobs_jobs sound.keys.unique returned).stays sound.keys ?_ ?_)
        · rintro id ⟨job, member, same, live, _⟩
          exact ⟨job, member, same, live⟩
        · rintro id ⟨_, _, _, _, unlocked⟩
          simp only [Bool.or_eq_false_iff] at unlocked
          exact unlocked.2
  | act worker claimed => exact sound.act worker claimed
  | finish worker =>
      simp only [World.step]
      split
      · exact sound
      rename_i session found
      split
      · exact sound
      rename_i outcome acted
      split
      · exact sound
      · rename_i free
        exact sound.finish (session?_mem found).1 acted (by simpa using free)
  | commit worker =>
      simp only [World.step]
      split
      · exact sound
      rename_i session found
      split
      · rename_i finished
        exact sound.commit (session?_mem found).1 finished
      · exact sound
  | crash worker => exact sound.close worker
  | fail jobId owner leaseVersion errorCode retryable =>
      simp only [World.step]
      split
      · exact sound
      rename_i free
      split
      · exact sound
      · rename_i failed reply returned
        obtain ⟨⟨job, member, same, held⟩, changed⟩ := failJob_jobs returned
        refine sound.stays world.handed (changed.stays sound.keys ?_ ?_)
        · rintro id rfl
          exact ⟨job, member, same, by rw [(held_leased held).1]; rfl⟩
        · rintro id rfl
          simpa using free
  | other call =>
      simp only [World.step]
      split
      · rename_i foreign
        cases returned : execDb world.db call with
        | none => exact sound
        | some later =>
            exact sound.stays world.handed ((foreign_added foreign returned).stays sound.keys)
      · exact sound

end World

/-! Reports under a lease that is not current. -/

def Db.leases (db : Db) (jobId : Nat) (owner : Option String) (leaseVersion : Int) : Prop :=
  ∃ job ∈ db.workflow.jobs, job.id = jobId ∧ job.state = .leased ∧ job.leaseOwner = owner ∧
    (job.leaseVersion : Int) = leaseVersion

section Stale

variable {db : Db} {jobId : Nat} {owner : Option String} {leaseVersion : Int}

theorem leaseIsStale_of_not_leases (stale : ¬ db.leases jobId owner leaseVersion) {job : Job}
    (found : db.workflow.job? jobId = some job) :
    job.leaseIsStale owner (some leaseVersion) = true := by
  obtain ⟨member, same⟩ := Table.lookup_mem found
  rw [← Bool.not_eq_false]
  intro held
  simp only [Job.leaseIsStale, Option.any_some, decide_eq_false_iff_not, not_or, ne_eq, not_not,
    decide_eq_true_eq] at held
  exact stale ⟨job, member, same, held⟩

theorem finishJob_stale (stale : ¬ db.leases jobId owner leaseVersion) (outcome : Option String) :
    finishJob db jobId owner (some leaseVersion) outcome =
      .error (.leaseStale jobId owner (some leaseVersion)) := by
  cases found : db.workflow.job? jobId with
  | none => simp only [finishJob, found]
  | some job => simp only [finishJob, found, leaseIsStale_of_not_leases stale found, if_true]

theorem failJob_stale (stale : ¬ db.leases jobId owner leaseVersion) (errorCode : Option String)
    (retryable : Bool) : failJob db jobId owner (some leaseVersion) errorCode retryable =
      .error (.leaseStale jobId owner (some leaseVersion)) := by
  cases found : db.workflow.job? jobId with
  | none => simp only [failJob, found]
  | some job => simp only [failJob, found, leaseIsStale_of_not_leases stale found, if_true]

/-- The view of an open transaction shows no lease that is not committed. -/
theorem Session.Sound.view_leases {session : Session} {view : Db} (sound : session.Sound db)
    (keys : JobKeys db) {outcome : String} (acted : session.phase = .acted outcome)
    (same : Db.merge? session.before session.after db = some view)
    (stale : ¬ db.leases jobId owner leaseVersion) : ¬ view.leases jobId owner leaseVersion := by
  obtain ⟨added, jobs, ready, _⟩ := sound.view keys acted same
  rintro ⟨job, member, sameId, leased, lease⟩
  rw [jobs] at member
  rcases List.mem_append.mp member with old | new
  · exact stale ⟨job, old, sameId, leased, lease⟩
  · rw [ready job new] at leased
    simp at leased

theorem World.Sound.finish_stale {world : World} (sound : world.Sound) {session : Session}
    {outcome : String} (member : session ∈ world.sessions) (acted : session.phase = .acted outcome)
    (free : world.locks session.claimed.jobId = false)
    (stale : ¬ world.db.leases session.claimed.jobId (some session.claimed.owner)
      session.claimed.leaseVersion) :
    world.step (.finish session.worker) = world.close session.worker := by
  have found : world.session? session.worker = some session :=
    Table.lookup_of_mem sound.workers member
  simp only [World.step, found, acted, free, Bool.false_eq_true, if_false, World.finish]
  split
  · rfl
  rename_i view same
  have viewStale := (sound.sessions session member).view_leases sound.keys acted same stale
  rw [finishClaimed, finishJob_stale viewStale]

end Stale

/-! Every interleaving. -/

def worked (config : Config) (clock : Nat → Time) (digest : String → String)
    (events : List Event) : World :=
  Runs.run World.step ⟨Db.initial config clock digest, [], [], []⟩ events

theorem worked_sound (config : Config) (clock : Nat → Time) (digest : String → String)
    (events : List Event) : (worked config clock digest events).Sound := by
  refine Runs.run_invariant World.Sound (fun _ event sound => sound.step event) events _ ?_
  constructor <;>
    simp [Db.initial, World.effects, Db.succeeded]
  constructor <;> simp

/-- A stale `finish_job` is rolled back together with the action that ran before it, a stale
`fail_job` changes nothing, and of every job the effect has been committed once if the job is
SUCCEEDED, and not at all otherwise. -/
theorem effects_fenced (config : Config) (clock : Nat → Time) (digest : String → String)
    (events : List Event) :
    let world := worked config clock digest events
    (∀ job ∈ world.db.workflow.jobs,
      world.effects job.id = if job.state = .succeeded then 1 else 0) ∧
    (∀ jobId, world.effects jobId ≤ 1) ∧
    ∀ jobId owner leaseVersion, ¬ world.db.leases jobId owner leaseVersion →
      (∀ outcome, finishJob world.db jobId owner (some leaseVersion) outcome =
        .error (.leaseStale jobId owner (some leaseVersion))) ∧
      (∀ errorCode retryable,
        failJob world.db jobId owner (some leaseVersion) errorCode retryable =
          .error (.leaseStale jobId owner (some leaseVersion)) ∧
        world.step (.fail jobId owner leaseVersion errorCode retryable) = world) ∧
      ∀ session ∈ world.sessions, session.claimed.jobId = jobId →
        some session.claimed.owner = owner → (session.claimed.leaseVersion : Int) = leaseVersion →
          ∀ outcome, session.phase = .acted outcome →
            (∀ view, Db.merge? session.before session.after world.db = some view →
              finishClaimed view session.claimed outcome =
                .error (.leaseStale jobId owner (some leaseVersion))) ∧
            (world.locks jobId = false →
              world.step (.finish session.worker) = world.close session.worker) := by
  intro world
  have sound : world.Sound := worked_sound config clock digest events
  refine ⟨?_, ?_, ?_⟩
  · intro job member
    rw [sound.effects]
    congr 1
    rw [eq_iff_iff, Db.succeeded_iff]
    constructor
    · rintro ⟨row, rowMember, same, done⟩
      exact Table.key_unique sound.keys.unique rowMember member same ▸ done
    · exact fun done => ⟨job, member, rfl, done⟩
  · intro jobId
    rw [sound.effects]
    split <;> omega
  · intro jobId owner leaseVersion stale
    refine ⟨finishJob_stale stale, ?_, ?_⟩
    · intro errorCode retryable
      refine ⟨failJob_stale stale errorCode retryable, ?_⟩
      simp only [World.step, failJob_stale stale, ite_self]
    · rintro session member rfl rfl rfl outcome acted
      constructor
      · intro view same
        exact finishJob_stale ((sound.sessions session member).view_leases sound.keys acted same
          stale) _
      · exact fun free => sound.finish_stale member acted free stale

end PaymentWorkflow
