import PaymentWorkflow.FleetProofs

/-!
A lease is with one dispatcher or in one attempt, whatever order the dispatchers move in and
wherever they die: what the provider is posted follows from it.
-/

namespace PaymentWorkflow.Dispatcher

open Interleaving (World)

def Batch.leases (batch : Batch) : List (Nat × Nat) := batch.rows.map OutboxClaim.lease

def Outlet.leases (outlet : Outlet) : List (Nat × Nat) :=
  outlet.attempts.map fun attempt => attempt.row.lease

structure Batch.Sound (outlet : Outlet) (batch : Batch) : Prop where
  backed : ∀ row ∈ batch.rows, outlet.system.db.Backs row
  once : batch.leases.Nodup
  unsent : batch.leases.Disjoint outlet.leases

def Batch.Apart (left right : Batch) : Prop := left.leases.Disjoint right.leases

structure Sound (world : World Outlet Batch) : Prop where
  backed : ∀ attempt ∈ world.shared.attempts, world.shared.system.db.Backs attempt.row
  once : world.shared.leases.Nodup
  batches : ∀ index, (world.party index).Sound world.shared
  apart : ∀ left right, left ≠ right → (world.party left).Apart (world.party right)

theorem Batch.Sound.shrinks {outlet : Outlet} {batch smaller : Batch} (sound : batch.Sound outlet)
    (rows : smaller.rows.Sublist batch.rows) : smaller.Sound outlet where
  backed := fun row member => sound.backed row (rows.subset member)
  once := (rows.map OutboxClaim.lease).nodup sound.once
  unsent := List.disjoint_of_subset_left (rows.map OutboxClaim.lease).subset sound.unsent

theorem Batch.Sound.bears {outlet later : Outlet} {batch : Batch} (sound : batch.Sound outlet)
    (bears : outlet.system.db.Bears later.system.db) (attempts : later.attempts = outlet.attempts) :
    batch.Sound later where
  backed := fun row member => bears.backs (sound.backed row member)
  once := sound.once
  unsent := by
    rw [Outlet.leases, attempts]
    exact sound.unsent

section Turns

variable {world : World Outlet Batch} {index : Nat} {outlet : Outlet} {batch : Batch}

theorem Sound.turn (sound : Sound world)
    (bears : world.shared.system.db.Bears outlet.system.db)
    (backed : ∀ attempt ∈ outlet.attempts, outlet.system.db.Backs attempt.row)
    (once : outlet.leases.Nodup) (own : batch.Sound outlet)
    (others : ∀ other, other ≠ index → (world.party other).leases.Disjoint outlet.leases ∧
      batch.Apart (world.party other)) : Sound (world.turn index outlet batch) where
  backed := backed
  once := once
  batches := by
    refine @World.turn_each _ _ world index outlet batch (fun outlet _ batch => batch.Sound outlet)
      sound.batches own ?_
    intro other different before
    exact ⟨fun row member => bears.backs (before.backed row member), before.once,
      (others other different).1⟩
  apart := by
    refine @World.turn_pairs _ _ world index outlet batch (fun _ left right => left.Apart right)
      (fun apart => apart.symm) sound.apart (fun other different => (others other different).2) ?_
    exact fun _ _ _ _ _ apart => apart

theorem Sound.stays (sound : Sound world) (bears : world.shared.system.db.Bears outlet.system.db)
    (attempts : outlet.attempts = world.shared.attempts)
    (rows : batch.rows.Sublist (world.party index).rows) :
    Sound (world.turn index outlet batch) := by
  have same : outlet.leases = world.shared.leases := by rw [Outlet.leases, attempts]; rfl
  refine sound.turn bears ?_ (same ▸ sound.once)
    (((sound.batches index).bears bears attempts).shrinks rows) ?_
  · intro attempt member
    exact bears.backs (sound.backed attempt (attempts ▸ member))
  · intro other different
    refine ⟨same ▸ (sound.batches other).unsent, ?_⟩
    exact List.disjoint_of_subset_left (rows.map OutboxClaim.lease).subset
      (sound.apart index other different.symm)

theorem Sound.attempted (sound : Sound world) {row : OutboxClaim} {rest : List OutboxClaim}
    {report : Option Report} (next : world.party index = ⟨row :: rest, report⟩)
    (config : DispatcherConfig) (reply : Reply) (rows : batch.rows.Sublist rest) :
    Sound (world.turn index
      { world.shared with attempts := world.shared.attempts ++ [⟨config, row, reply⟩] } batch) := by
  have own := sound.batches index
  rw [next] at own
  have unsent : row.lease ∉ world.shared.leases := own.unsent List.mem_cons_self
  have distinct : row.lease ∉ rest.map OutboxClaim.lease := (List.nodup_cons.mp own.once).1
  have leases : Outlet.leases { world.shared with
      attempts := world.shared.attempts ++ [⟨config, row, reply⟩] } =
        world.shared.leases ++ [row.lease] := by simp [Outlet.leases]
  have remaining : Batch.Sound world.shared ⟨rest, none⟩ :=
    own.shrinks (List.sublist_cons_self row rest)
  refine sound.turn (.refl _) ?_ ?_ ?_ ?_
  · intro attempt member
    rcases List.mem_append.mp member with old | new
    · exact sound.backed attempt old
    · obtain rfl := List.mem_singleton.mp new
      exact own.backed row List.mem_cons_self
  · rw [leases]
    exact List.nodup_append_comm.mp (List.nodup_cons.mpr ⟨unsent, sound.once⟩)
  · have small : batch.Sound world.shared := remaining.shrinks rows
    refine ⟨small.backed, small.once, ?_⟩
    rw [leases]
    refine List.disjoint_append_right.mpr ⟨small.unsent, ?_⟩
    rw [List.disjoint_singleton]
    exact fun member => distinct ((rows.map OutboxClaim.lease).subset member)
  · intro other different
    have apart := sound.apart index other different.symm
    rw [next] at apart
    constructor
    · rw [leases]
      refine List.disjoint_append_right.mpr ⟨(sound.batches other).unsent, ?_⟩
      rw [List.disjoint_singleton]
      exact apart List.mem_cons_self
    · refine List.disjoint_of_subset_left ?_ apart
      exact fun lease member => List.mem_cons_of_mem _ ((rows.map OutboxClaim.lease).subset member)

/-- The leases of a claim are new: every lease handed out before is no later than its row's. -/
theorem Sound.claimed (sound : Sound world) (steady : world.shared.system.db.Steady)
    (lattice : world.shared.system.db.delivery.Lattice) {owner : String} {limit : Option Int}
    {locked : Nat → Bool} {leased : Db} {rows : List OutboxClaim}
    (returned : claimOutbox world.shared.system.db owner limit locked = .ok (leased, rows)) :
    Sound (world.turn index (world.shared.withDb leased) ⟨rows, none⟩) := by
  have bears : world.shared.system.db.Bears leased :=
    (OtherMoves.of_outside (claimOutbox_moves steady.ledger.outboxIds returned)).system.bears steady
  obtain ⟨distinct, copies⟩ := claimOutbox_copies steady.ledger lattice returned
  have fresh : ∀ claim ∈ rows, ∀ other, world.shared.system.db.Backs other →
      other.lease ≠ claim.lease := by
    rintro claim member other ⟨row, rowMember, external, _, backing⟩ same
    obtain ⟨_, before, beforeMember, sameId, next⟩ := copies claim member
    simp only [OutboxClaim.lease, Prod.mk.injEq] at same
    have equal : row = before := Table.key_unique steady.ledger.outboxIds rowMember beforeMember
      ((backing.id.trans same.1).trans sameId.symm)
    have past := backing.past
    rw [equal, same.2] at past
    omega
  have newLeases : ∀ lease ∈ rows.map OutboxClaim.lease, ∀ other,
      world.shared.system.db.Backs other → other.lease ≠ lease := by
    intro lease member
    obtain ⟨claim, claimMember, rfl⟩ := List.mem_map.mp member
    exact fresh claim claimMember
  have unsent : (rows.map OutboxClaim.lease).Disjoint world.shared.leases := by
    intro lease member sent
    obtain ⟨attempt, inside, rfl⟩ := List.mem_map.mp sent
    exact newLeases _ member attempt.row (sound.backed attempt inside) rfl
  refine sound.turn bears (fun attempt member => bears.backs (sound.backed attempt member))
    sound.once ⟨fun row member => (copies row member).1, ?_, unsent⟩ ?_
  · refine List.Nodup.of_map Prod.fst ?_
    rw [Batch.leases, List.map_map]
    exact distinct
  · intro other different
    refine ⟨(sound.batches other).unsent, ?_⟩
    intro lease member held
    obtain ⟨row, inside, rfl⟩ := List.mem_map.mp held
    exact newLeases _ member row ((sound.batches other).backed row inside) rfl

end Turns

theorem Batch.after_rows (rest : List OutboxClaim) (reaction : Reaction) :
    (Batch.after rest reaction).rows.Sublist rest := by
  cases reaction with
  | report | skipped => exact List.Sublist.refl _
  | aborted => exact List.nil_sublist _

section Runs

variable (fleet : Fleet) {config : Config} {clock : Nat → Time} {digest : String → String}

theorem Fleet.turn_sound {world : World Outlet Batch} (steady : world.shared.system.db.Steady)
    (lattice : world.shared.system.db.delivery.Lattice) (sound : Sound world) (turn : Turn) :
    Sound (fleet.turn world turn) := by
  cases turn with
  | call call =>
      have bears := (step_moves steady call).bears steady
      exact ⟨fun attempt member => bears.backs (sound.backed attempt member), sound.once,
        fun index => (sound.batches index).bears bears rfl, sound.apart⟩
  | dispatcher index move =>
      have moved := fleet.moved (fleet.config index) world.shared (world.party index) move
      simp only [Fleet.turn]
      generalize fleet.move (fleet.config index) world.shared (world.party index) move = result
        at moved
      cases moved with
      | none => exact sound.stays (.refl _) rfl (List.Sublist.refl _)
      | claimed free returned => exact sound.claimed steady lattice returned
      | attempted reply next => exact sound.attempted next _ reply (Batch.after_rows _ _)
      | @reported rows report due =>
          refine sound.stays ?_ rfl (by rw [due])
          have moves := step_moves steady report.call
          rw [step_report] at moves
          exact moves.bears steady
      | lost due => exact sound.stays (.refl _) rfl (by rw [due])
      | died => exact sound.stays (.refl _) rfl (List.nil_sublist _)

theorem Fleet.operated_sound (turns : List Turn) :
    Sound (fleet.operated config clock digest turns) := by
  have both := Runs.run_invariant
    (fun world : World Outlet Batch => Sound world ∧ Served config clock digest world)
    (fun _ turn holds => ⟨fleet.turn_sound holds.2.steady holds.2.lattice holds.1 turn,
      holds.2.turn fleet turn⟩) turns (Fleet.initial config clock digest) ?_
  · exact both.1
  · refine ⟨⟨?_, List.nodup_nil, ?_, ?_⟩, [], rfl⟩
    · exact fun attempt member => absurd member List.not_mem_nil
    · refine fun index => ⟨?_, List.nodup_nil, List.disjoint_nil_left _⟩
      exact fun row member => absurd member List.not_mem_nil
    · exact fun _ _ _ => List.disjoint_nil_left _

end Runs

/-! What the provider is posted. -/

section Posts

variable {fleet : Fleet} {outlet : Outlet}

def Attempt.Posts (attempt : Attempt) (request : ProviderRequest) : Prop :=
  buildProviderRequest attempt.config attempt.row = some request

theorem Fleet.posts_mem {request : ProviderRequest} (member : request ∈ fleet.posts outlet) :
    ∃ attempt ∈ outlet.attempts, attempt.Posts request := by
  obtain ⟨event, inside, same⟩ := List.mem_filterMap.mp member
  obtain ⟨attempt, attemptMember, sent⟩ := List.mem_flatMap.mp inside
  obtain ⟨built, posts, only⟩ := @exchange_posts fleet.libraries attempt.config attempt.reply
    attempt.row
  refine ⟨attempt, attemptMember, ?_⟩
  have found := List.mem_filterMap.mpr ⟨event, sent, same⟩
  rw [only, List.mem_singleton] at found
  rw [found]
  exact posts

theorem Fleet.posts_count (externalRequestId : String) :
    (fleet.posts outlet).countP (fun request => request.idempotencyKey = externalRequestId) =
      (outlet.attempts.filter fun attempt =>
        attempt.row.externalRequestId = externalRequestId).length := by
  obtain ⟨system, attempts⟩ := outlet
  simp only [Fleet.posts, Fleet.events]
  induction attempts with
  | nil => rfl
  | cons attempt rest ih =>
      obtain ⟨request, built, only⟩ := @exchange_posts fleet.libraries attempt.config attempt.reply
        attempt.row
      obtain ⟨-, key, -⟩ := buildProviderRequest_fields built
      rw [List.flatMap_cons, List.filterMap_append, only, List.singleton_append, List.countP_cons, ih,
        List.filter_cons, key]
      by_cases named : attempt.row.externalRequestId = externalRequestId <;> simp [named]

end Posts

section Provider

variable {world : World Outlet Batch}

/-- The attempts under one key are attempts of one outbox row, each under a lease of its own. -/
theorem Sound.attempts_bound (sound : Sound world)
    (lattice : world.shared.system.db.delivery.Lattice) {row : OutboxRow}
    (member : row ∈ world.shared.system.db.delivery.outbox) :
    (world.shared.attempts.filter fun attempt =>
      attempt.row.externalRequestId = row.externalRequestId).length ≤ row.leaseVersion := by
  let own := world.shared.attempts.filter fun attempt =>
    attempt.row.externalRequestId = row.externalRequestId
  have unique : (world.shared.system.db.delivery.outbox.map OutboxRow.externalRequestId).Nodup :=
    lattice.paired ▸ lattice.externalIds
  have facts : ∀ attempt ∈ own, attempt.row.outboxId = row.id ∧ 1 ≤ attempt.row.leaseVersion ∧
      attempt.row.leaseVersion ≤ row.leaseVersion := by
    intro attempt inside
    obtain ⟨made, named⟩ := List.mem_filter.mp inside
    obtain ⟨other, otherMember, external, _, copies⟩ := sound.backed attempt made
    obtain rfl := Table.key_unique unique otherMember member
      (copies.externalRequestId.trans (of_decide_eq_true named))
    exact ⟨copies.id.symm, copies.leased, copies.past⟩
  have leases : (own.map fun attempt => attempt.row.lease).Nodup :=
    (List.filter_sublist.map _).nodup sound.once
  have versions : (own.map fun attempt => attempt.row.leaseVersion).Nodup := by
    refine List.Nodup.map_on ?_ (List.Nodup.of_map _ leases)
    intro left leftMember right rightMember same
    refine List.inj_on_of_nodup_map leases leftMember rightMember ?_
    rw [OutboxClaim.lease, OutboxClaim.lease, (facts left leftMember).1, (facts right rightMember).1,
      same]
  have within : (own.map fun attempt => attempt.row.leaseVersion) ⊆
      List.range' 1 row.leaseVersion := by
    intro version inside
    obtain ⟨attempt, made, rfl⟩ := List.mem_map.mp inside
    obtain ⟨-, first, last⟩ := facts attempt made
    rw [List.mem_range'_1]
    omega
  have bound := (versions.subperm within).length_le
  rwa [List.length_map, List.length_range'] at bound

/-- Two attempts under one key have posted one body under one correlation. -/
theorem Sound.posts_agree (sound : Sound world)
    (lattice : world.shared.system.db.delivery.Lattice) {first second : Attempt}
    {request other : ProviderRequest} (firstMember : first ∈ world.shared.attempts)
    (secondMember : second ∈ world.shared.attempts) (firstPosts : first.Posts request)
    (secondPosts : second.Posts other) (same : request.idempotencyKey = other.idempotencyKey) :
    request.body = other.body ∧ request.correlation = other.correlation := by
  obtain ⟨firstBody, firstKey, firstCorrelation⟩ := buildProviderRequest_fields firstPosts
  obtain ⟨secondBody, secondKey, secondCorrelation⟩ := buildProviderRequest_fields secondPosts
  obtain ⟨left, leftMember, leftExternal, leftPresent, leftCopies⟩ := sound.backed first firstMember
  obtain ⟨right, rightMember, rightExternal, rightPresent, rightCopies⟩ :=
    sound.backed second secondMember
  have unique : (world.shared.system.db.delivery.outbox.map OutboxRow.externalRequestId).Nodup :=
    lattice.paired ▸ lattice.externalIds
  have key : first.row.externalRequestId = second.row.externalRequestId := by
    rw [← firstKey, ← secondKey, same]
  obtain rfl : left = right := Table.key_unique unique leftMember rightMember
    (leftCopies.externalRequestId.trans (key.trans rightCopies.externalRequestId.symm))
  obtain rfl : leftExternal = rightExternal := Table.key_unique lattice.externalIds leftPresent
    rightPresent (leftCopies.names.trans (key.trans rightCopies.names.symm))
  constructor
  · rw [key, leftCopies.amount, leftCopies.currency, ← rightCopies.amount, ← rightCopies.currency,
      secondBody] at firstBody
    exact (Option.some.inj firstBody).symm
  · rw [firstCorrelation, secondCorrelation, ← leftCopies.correlationId,
      ← rightCopies.correlationId]

end Provider

/--
The provider is posted one request for an operation: under one key, with one body and one
correlation, at most once for every lease of its outbox row.
-/
theorem provider_posted_one_request (fleet : Fleet) (config : Config) (clock : Nat → Time)
    (digest : String → String) (turns : List Turn) :
    let outlet := (fleet.operated config clock digest turns).shared
    outlet.leases.Nodup ∧
      (∀ request ∈ fleet.posts outlet, ∀ other ∈ fleet.posts outlet,
        request.idempotencyKey = other.idempotencyKey →
          request.body = other.body ∧ request.correlation = other.correlation) ∧
      ∀ request ∈ fleet.posts outlet,
        (∃ external ∈ outlet.system.db.delivery.externalRequests,
          external.id = request.idempotencyKey ∧
            ∀ other ∈ outlet.system.db.delivery.externalRequests,
              other.operationId = external.operationId → other = external) ∧
        ∃ row ∈ outlet.system.db.delivery.outbox, row.externalRequestId = request.idempotencyKey ∧
          (fleet.posts outlet).countP (fun other => other.idempotencyKey = request.idempotencyKey) ≤
            row.leaseVersion := by
  have sound := @Fleet.operated_sound fleet config clock digest turns
  have lattice := (@Fleet.operated_served config clock digest fleet turns).lattice
  refine ⟨sound.once, ?_, ?_⟩
  · intro request member other otherMember same
    obtain ⟨first, firstMember, firstPosts⟩ := Fleet.posts_mem member
    obtain ⟨second, secondMember, secondPosts⟩ := Fleet.posts_mem otherMember
    exact sound.posts_agree lattice firstMember secondMember firstPosts secondPosts same
  · intro request member
    obtain ⟨attempt, attemptMember, posts⟩ := Fleet.posts_mem member
    obtain ⟨row, rowMember, external, present, copies⟩ := sound.backed attempt attemptMember
    obtain ⟨-, key, -⟩ := buildProviderRequest_fields posts
    refine ⟨⟨external, present, copies.names.trans key.symm, fun other otherPresent same =>
      Table.key_unique lattice.operationIds otherPresent present same⟩, row, rowMember,
      copies.externalRequestId.trans key.symm, ?_⟩
    rw [Fleet.posts_count, key, ← copies.externalRequestId]
    exact sound.attempts_bound lattice rowMember

namespace Sample

def fleet : Fleet := ⟨libraries, fun _ => config⟩

def takenOver : List Turn := Seed.prepared.map .call ++ [
  .dispatcher 0 (.claim fun _ => false), .dispatcher 0 (.attempt (.broken .os)),
  .dispatcher 0 .die,
  .dispatcher 1 (.claim fun _ => false), .dispatcher 1 (.attempt (.broken .os)),
  .dispatcher 1 (.report true)]

end Sample

example : (Sample.fleet.operated Seed.config Seed.tens id Sample.takenOver).shared.attempts.map
    (fun attempt => attempt.row.leaseVersion) = [1, 2] := by
  decide +kernel

end PaymentWorkflow.Dispatcher
