import PaymentWorkflow.SystemRuns

/-!
The attempts of a job: the job counts them, and each runs under a lease version of its own.
-/

namespace PaymentWorkflow

def opened (attempts : List Attempt) (jobId : Nat) : List Attempt :=
  attempts.filter fun row => row.jobId = jobId

def failures (attempts : List Attempt) (jobId : Nat) : Nat :=
  (opened attempts jobId).countP fun row => row.status = .failed

def Attempt.fixed (attempt : Attempt) : Attempt :=
  { attempt with status := .running, outcome := none, errorCode := none }

theorem Attempt.same_keys {row attempt : Attempt} (same : row.fixed = attempt.fixed) :
    row.id = attempt.id ∧ row.jobId = attempt.jobId ∧
      row.leaseVersion = attempt.leaseVersion := by
  simp only [Attempt.fixed, Attempt.mk.injEq] at same
  exact ⟨same.1, same.2.1, same.2.2.2.1⟩

section Updates

variable {attempts : List Attempt} {matched : Attempt → Bool} {change : Attempt → Attempt}

theorem opened_update (stable : ∀ row, (change row).fixed = row.fixed) (jobId : Nat) :
    opened (Table.update matched change attempts) jobId =
      Table.update matched change (opened attempts jobId) := by
  apply Table.filter_update
  intro row
  simp [(Attempt.same_keys (stable row)).2.1]

theorem mem_opened {jobId : Nat} {row : Attempt} :
    row ∈ opened attempts jobId ↔ row ∈ attempts ∧ row.jobId = jobId := by
  simp [opened]

theorem failures_update_le (stable : ∀ row, (change row).fixed = row.fixed) {jobId : Nat}
    (calm : ∀ row ∈ attempts, row.jobId = jobId → matched row = true →
      (change row).status = .failed → row.status = .failed) :
    failures (Table.update matched change attempts) jobId ≤ failures attempts jobId := by
  rw [failures, failures, opened_update stable, Table.update, List.countP_map]
  apply List.countP_mono_left
  intro row member failed
  have inside := mem_opened.mp member
  by_cases hit : matched row = true
  · simp only [Function.comp, hit, if_true, decide_eq_true_eq] at failed
    simpa using calm row inside.1 inside.2 hit failed
  · simpa [hit] using failed

theorem failures_update_fail (stable : ∀ row, (change row).fixed = row.fixed)
    (fails : ∀ row, (change row).status = .failed)
    (running : ∀ row, matched row = true → row.status = .running) (jobId : Nat) :
    failures (Table.update matched change attempts) jobId =
      failures attempts jobId + (opened attempts jobId).countP matched := by
  rw [failures, opened_update stable, failures]
  generalize opened attempts jobId = rows
  induction rows with
  | nil => rfl
  | cons row rest ih =>
      simp only [Table.update_cons, List.countP_cons, ih]
      by_cases hit : matched row = true
      · simp [hit, fails, running row hit]
        omega
      · simp [hit]
        omega

/-- Failed, matched and other attempts are all there are. -/
theorem length_opened (running : ∀ row, matched row = true → row.status = .running)
    (jobId : Nat) : (opened attempts jobId).length =
      failures attempts jobId + (opened attempts jobId).countP matched +
        (opened attempts jobId).countP fun row => row.status ≠ .failed ∧ matched row = false := by
  rw [failures]
  generalize opened attempts jobId = rows
  induction rows with
  | nil => rfl
  | cons row rest ih =>
      simp only [List.length_cons, List.countP_cons, ih]
      by_cases hit : matched row = true
      · simp [hit, running row hit]
        omega
      · by_cases failed : row.status = .failed <;> simp [hit, failed] <;> omega

end Updates

theorem failures_le (attempts : List Attempt) (jobId : Nat) :
    failures attempts jobId ≤ (opened attempts jobId).length :=
  List.countP_le_length

/-- At most one attempt of a job runs under a given lease version. -/
theorem countP_runsUnder_le {rows : List Attempt} (unique : (rows.map Attempt.leaseVersion).Nodup)
    (jobId : Nat) (leaseVersion : Option Int) :
    rows.countP (fun row => row.runsUnder jobId leaseVersion) ≤ 1 := by
  induction rows with
  | nil => simp
  | cons row rest ih =>
      simp only [List.map_cons, List.nodup_cons, List.mem_map, not_exists, not_and] at unique
      rw [List.countP_cons]
      by_cases hit : row.runsUnder jobId leaseVersion = true
      · have others : rest.countP (fun row => row.runsUnder jobId leaseVersion) = 0 := by
          rw [List.countP_eq_zero]
          intro other member runs
          simp only [Attempt.runsUnder, decide_eq_true_eq] at hit runs
          have same : (other.leaseVersion : Int) = row.leaseVersion :=
            Option.some.inj (runs.2.1.symm.trans hit.2.1)
          exact unique.1 other member (by omega)
        rw [others]
        simp [hit]
      · have later := ih unique.2
        simp only [hit]
        simpa using later

structure Numbered (jobs : List Job) (attempts : List Attempt) (nextId : Nat) : Prop where
  ids : (attempts.map Attempt.id).Nodup
  idBound : ∀ row ∈ attempts, row.id < nextId
  owned : ∀ row ∈ attempts, ∃ job ∈ jobs, job.id = row.jobId
  count : ∀ job ∈ jobs, (opened attempts job.id).length = job.attemptCount
  versions : ∀ job ∈ jobs, ((opened attempts job.id).map Attempt.leaseVersion).Nodup
  latest : ∀ job ∈ jobs, ∀ row ∈ opened attempts job.id, row.leaseVersion ≤ job.leaseVersion

abbrev Db.Numbered (db : Db) : Prop :=
  PaymentWorkflow.Numbered db.workflow.jobs db.workflow.attempts db.nextId

namespace Numbered

variable {jobs : List Job} {attempts : List Attempt} {nextId : Nat}

theorem mono (numbered : Numbered jobs attempts nextId) {later : Nat} (bound : nextId ≤ later) :
    Numbered jobs attempts later :=
  { numbered with idBound := fun row member => Nat.lt_of_lt_of_le (numbered.idBound row member) bound }

theorem updateAttempts (numbered : Numbered jobs attempts nextId) {matched : Attempt → Bool}
    {change : Attempt → Attempt} (stable : ∀ row, (change row).fixed = row.fixed) :
    Numbered jobs (Table.update matched change attempts) nextId where
  ids := by
    rw [Table.map_update Attempt.id _ _ fun row => (Attempt.same_keys (stable row)).1]
    exact numbered.ids
  idBound := by
    intro row member
    obtain ⟨old, oldMember, rfl⟩ := Table.mem_update.mp member
    have bound := numbered.idBound old oldMember
    split
    · rwa [(Attempt.same_keys (stable old)).1]
    · exact bound
  owned := by
    intro row member
    obtain ⟨old, oldMember, rfl⟩ := Table.mem_update.mp member
    obtain ⟨job, jobMember, same⟩ := numbered.owned old oldMember
    refine ⟨job, jobMember, ?_⟩
    split
    · rwa [(Attempt.same_keys (stable old)).2.1]
    · exact same
  count := by
    intro job member
    rw [opened_update stable, Table.update, List.length_map]
    exact numbered.count job member
  versions := by
    intro job member
    rw [opened_update stable,
      Table.map_update Attempt.leaseVersion _ _ fun row => (Attempt.same_keys (stable row)).2.2]
    exact numbered.versions job member
  latest := by
    intro job member row inside
    rw [opened_update stable] at inside
    obtain ⟨old, oldMember, rfl⟩ := Table.mem_update.mp inside
    have bound := numbered.latest job member old oldMember
    split
    · rwa [(Attempt.same_keys (stable old)).2.2]
    · exact bound

/-- A job may change anything but its key, its count and its lease version. -/
theorem updateJobs (numbered : Numbered jobs attempts nextId) {matched : Job → Bool}
    {change : Job → Job} (stable : ∀ row, (change row).id = row.id ∧
      (change row).attemptCount = row.attemptCount ∧ (change row).leaseVersion = row.leaseVersion) :
    Numbered (Table.update matched change jobs) attempts nextId := by
  have old : ∀ job ∈ Table.update matched change jobs, ∃ before ∈ jobs, job.id = before.id ∧
      job.attemptCount = before.attemptCount ∧ job.leaseVersion = before.leaseVersion := by
    intro job member
    obtain ⟨before, inside, rfl⟩ := Table.mem_update.mp member
    refine ⟨before, inside, ?_⟩
    split
    · exact stable before
    · exact ⟨rfl, rfl, rfl⟩
  refine { numbered with owned := ?_, count := ?_, versions := ?_, latest := ?_ }
  · intro row member
    obtain ⟨job, inside, same⟩ := numbered.owned row member
    refine ⟨_, Table.mem_update.mpr ⟨job, inside, rfl⟩, ?_⟩
    split
    · rwa [(stable job).1]
    · exact same
  · intro job member
    obtain ⟨before, inside, id, count, _⟩ := old job member
    rw [id, count]
    exact numbered.count before inside
  · intro job member
    obtain ⟨before, inside, id, _⟩ := old job member
    rw [id]
    exact numbered.versions before inside
  · intro job member
    obtain ⟨before, inside, id, _, version⟩ := old job member
    rw [id, version]
    exact numbered.latest before inside

theorem change (numbered : Numbered jobs attempts nextId) {rows : List Job}
    {opened : List Attempt} {matched : Job → Bool} {change : Job → Job}
    {matchedAttempt : Attempt → Bool} {changeAttempt : Attempt → Attempt}
    (rowsEq : rows = Table.update matched change jobs)
    (openedEq : opened = Table.update matchedAttempt changeAttempt attempts)
    (stableAttempt : ∀ row, (changeAttempt row).fixed = row.fixed)
    (stable : ∀ row, (change row).id = row.id ∧
      (change row).attemptCount = row.attemptCount ∧ (change row).leaseVersion = row.leaseVersion) :
    Numbered rows opened nextId := by
  subst rowsEq openedEq
  exact (numbered.updateAttempts stableAttempt).updateJobs stable

theorem opened_fresh (numbered : Numbered jobs attempts nextId) {jobId : Nat}
    (fresh : ∀ job ∈ jobs, job.id ≠ jobId) : opened attempts jobId = [] := by
  rw [opened, List.filter_eq_nil_iff]
  intro row member
  obtain ⟨job, inside, same⟩ := numbered.owned row member
  have other := fresh job inside
  simp only [decide_eq_true_eq]
  omega

theorem place (numbered : Numbered jobs attempts nextId) {added : List Job}
    (fresh : ∀ job ∈ added, (∀ old ∈ jobs, old.id ≠ job.id) ∧ job.attemptCount = 0) :
    Numbered (jobs ++ added) attempts nextId := by
  have none : ∀ job ∈ added, opened attempts job.id = [] :=
    fun job member => numbered.opened_fresh (fresh job member).1
  refine { numbered with owned := ?_, count := ?_, versions := ?_, latest := ?_ }
  · intro row member
    obtain ⟨job, inside, same⟩ := numbered.owned row member
    exact ⟨job, by simp [inside], same⟩
  · intro job member
    rcases List.mem_append.mp member with old | new
    · exact numbered.count job old
    · rw [none job new, (fresh job new).2]
      rfl
  · intro job member
    rcases List.mem_append.mp member with old | new
    · exact numbered.versions job old
    · simp [none job new]
  · intro job member
    rcases List.mem_append.mp member with old | new
    · exact numbered.latest job old
    · simp [none job new]

theorem lease (numbered : Numbered jobs attempts nextId) (keys : (jobs.map Job.id).Nodup)
    {job : Job} (member : job ∈ jobs) {attempt : Attempt} (id : attempt.id = nextId)
    (owner : attempt.jobId = job.id) (version : attempt.leaseVersion = job.leaseVersion + 1)
    {change : Job → Job} (key : (change job).id = job.id)
    (count : (change job).attemptCount = job.attemptCount + 1)
    (leased : (change job).leaseVersion = job.leaseVersion + 1) :
    Numbered (Table.update (fun row => row.id = job.id) change jobs) (attempts ++ [attempt])
      (nextId + 1) := by
  have split : ∀ other, opened (attempts ++ [attempt]) other =
      opened attempts other ++ if job.id = other then [attempt] else [] := by
    intro other
    by_cases same : job.id = other <;> simp [opened, owner, same]
  have old : ∀ row ∈ Table.update (fun row => row.id = job.id) change jobs,
      row = change job ∨ (row ∈ jobs ∧ job.id ≠ row.id) := by
    intro row inside
    obtain ⟨before, beforeMember, rfl⟩ := Table.mem_update.mp inside
    by_cases same : before.id = job.id
    · obtain rfl := Table.key_unique keys beforeMember member same
      simp
    · simp only [same, decide_false, Bool.false_eq_true, if_false]
      exact .inr ⟨beforeMember, Ne.symm same⟩
  refine ⟨?_, ?_, ?_, ?_, ?_, ?_⟩
  · rw [List.map_append, List.nodup_append]
    refine ⟨numbered.ids, by simp, ?_⟩
    intro left leftMember right rightMember same
    obtain ⟨row, inside, rfl⟩ := List.mem_map.mp leftMember
    simp only [List.map_cons, List.map_nil, List.mem_singleton] at rightMember
    have bound := numbered.idBound row inside
    omega
  · intro row inside
    rcases List.mem_append.mp inside with before | new
    · exact Nat.lt_succ_of_lt (numbered.idBound row before)
    · simp only [List.mem_singleton] at new
      subst new
      omega
  · intro row inside
    have owners : ∃ before ∈ jobs, before.id = row.jobId := by
      rcases List.mem_append.mp inside with before | new
      · exact numbered.owned row before
      · simp only [List.mem_singleton] at new
        exact ⟨job, member, new ▸ owner.symm⟩
    obtain ⟨before, beforeMember, same⟩ := owners
    refine ⟨_, Table.mem_update.mpr ⟨before, beforeMember, rfl⟩, ?_⟩
    by_cases hit : before.id = job.id
    · obtain rfl := Table.key_unique keys beforeMember member hit
      simpa [key] using same
    · simpa [hit] using same
  · intro row inside
    rcases old row inside with rfl | ⟨before, other⟩
    · rw [key, split, if_pos rfl, List.length_append, numbered.count job member, count]
      rfl
    · rw [split, if_neg other, List.append_nil]
      exact numbered.count row before
  · intro row inside
    rcases old row inside with rfl | ⟨before, other⟩
    · rw [key, split, if_pos rfl, List.map_append, List.nodup_append]
      refine ⟨numbered.versions job member, by simp, ?_⟩
      intro left leftMember right rightMember same
      obtain ⟨earlier, earlierMember, rfl⟩ := List.mem_map.mp leftMember
      simp only [List.map_cons, List.map_nil, List.mem_singleton] at rightMember
      have bound := numbered.latest job member earlier earlierMember
      omega
    · rw [split, if_neg other, List.append_nil]
      exact numbered.versions row before
  · intro row inside
    rcases old row inside with rfl | ⟨before, other⟩
    · rw [key, split, if_pos rfl, leased]
      intro earlier earlierMember
      rcases List.mem_append.mp earlierMember with early | new
      · exact Nat.le_succ_of_le (numbered.latest job member earlier early)
      · simp only [List.mem_singleton] at new
        subst new
        omega
    · rw [split, if_neg other, List.append_nil]
      exact numbered.latest row before

end Numbered

/-! Every move keeps the count. -/

theorem Db.placeStep_numbered {db : Db} (numbered : db.Numbered) (rows : db.Rows)
    (processId : Nat) (definition : StepDefinition) :
    (db.placeStep processId definition).Numbered := by
  rw [Db.Numbered, Db.placeStep_jobs, Db.placeStep_attempts, Db.placeStep_nextId]
  refine (numbered.place ?_).mono (by omega)
  intro job member
  have shape : job.id = db.nextId + 1 ∧ job.attemptCount = 0 := by
    simp only [Db.placedJobs] at member
    split at member
    · simp only [List.mem_singleton] at member
      subst member
      exact ⟨rfl, rfl⟩
    · simp at member
  refine ⟨?_, shape.2⟩
  intro old oldMember same
  have bound := rows.jobBound old oldMember
  omega

theorem EngineMove.numbered {processId : Nat} {db later : Db}
    (move : EngineMove processId db later) (sound : db.Sound) (numbered : db.Numbered) :
    later.Numbered := by
  cases move with
  | ticked => exact numbered
  | swept => exact numbered.updateAttempts fun _ => rfl
  | applied => exact numbered
  | started =>
      refine Db.placeStep_numbered ?_ (Db.startRows sound.rows _ _ _ _) _ _
      exact numbered.mono (Nat.le_succ _)
  | stored => exact numbered
  | signalled =>
      refine Db.placeStep_numbered ?_ (Db.consumeSignal_rows sound.rows _ _ _ _) _ _
      exact numbered
  | leased owner leaseMs member =>
      exact numbered.lease sound.rows.jobIds member rfl rfl rfl rfl rfl rfl
  | disabled => exact Numbered.change numbered rfl rfl (fun _ => rfl) fun _ => ⟨rfl, rfl, rfl⟩
  | finished =>
      refine Db.placeStep_numbered ?_ (Db.completeJob_rows sound.rows _ _ _) _ _
      exact Numbered.change numbered rfl rfl (fun _ => rfl) fun _ => ⟨rfl, rfl, rfl⟩
  | retried => exact Numbered.change numbered rfl rfl (fun _ => rfl) fun _ => ⟨rfl, rfl, rfl⟩
  | died => exact Numbered.change numbered rfl rfl (fun _ => rfl) fun _ => ⟨rfl, rfl, rfl⟩
  | decided =>
      refine Db.placeStep_numbered ?_ (Db.decide_rows sound.rows _ _ _ _ _ _) _ _
      exact numbered.mono (Nat.le_succ _)

theorem EngineMoves.numbered {processId : Nat} {db later : Db}
    (moves : EngineMoves processId db later) (sound : db.Sound) (numbered : db.Numbered) :
    later.Numbered := by
  induction moves with
  | refl => exact numbered
  | tail earlier move ih => exact move.numbered (EngineMoves.sound earlier sound) ih

theorem SystemMoves.numbered {db later : Db} (moves : SystemMoves db later) (steady : db.Steady)
    (numbered : db.Numbered) : later.Numbered := by
  refine SystemMoves.invariant Db.Numbered ?_ ?_ ?_ moves steady numbered
  · intro processId before after sound _ numbered move
    exact move.numbered sound numbered
  · intro before after _ _ numbered move
    rw [Db.Numbered, move.workflow_eq]
    exact numbered.mono move.nextId_le
  · intro target operation before after _ _ numbered move
    cases move
    exact numbered

theorem reached_numbered (config : Config) (clock : Nat → Time) (digest : String → String)
    (calls : List Call) : (reached config clock digest calls).db.Numbered := by
  refine SystemMoves.numbered (run_moves calls (fresh config clock digest) initial_steady)
    initial_steady ?_
  constructor <;> simp [fresh, Db.initial]

end PaymentWorkflow
