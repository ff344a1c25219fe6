import PaymentWorkflow.Interleaving
import PaymentWorkflow.Runs

/-!
Row locks of transactions that take turns on a shared store, in the modes of PostgreSQL: a
statement waits while another transaction holds a conflicting lock, and a lock is held until
its transaction ends.
-/

namespace RowLocks

open Interleaving

inductive Mode
  | keyShare | share | noKeyUpdate | update
deriving DecidableEq

def Mode.conflicts : Mode → Mode → Bool
  | .keyShare, .update | .update, .keyShare => true
  | .keyShare, _ | _, .keyShare => false
  | .share, .share => false
  | _, _ => true

theorem Mode.conflicts_comm (left right : Mode) : left.conflicts right = right.conflicts left := by
  cases left <;> cases right <;> rfl

structure Request (Row : Type) where
  row : Row
  mode : Mode
deriving DecidableEq

structure Lock (Row : Type) extends Request Row where
  owner : Nat

structure Server (Shared Party Row : Type) extends World Shared Party where
  locks : List (Lock Row)

/-- The code of the transactions: the lock the next statement needs, what the statement does
once it has it, and whether the transaction is over. -/
structure Program (Shared Party Row : Type) where
  request : Shared → Party → Option (Request Row)
  perform : Shared → Party → Shared × Party
  ended : Party → Bool

variable {Shared Party Row : Type}

def Lock.obstructs [DecidableEq Row] (lock : Lock Row) (index : Nat) (request : Request Row) : Bool :=
  lock.owner ≠ index ∧ lock.row = request.row ∧ lock.mode.conflicts request.mode = true

def Server.grants [DecidableEq Row] (server : Server Shared Party Row) (index : Nat) :
    Option (Request Row) → Bool
  | none => true
  | some request => !server.locks.any fun lock => lock.obstructs index request

namespace Program

def next (program : Program Shared Party Row) (server : Server Shared Party Row) (index : Nat) :
    Option (Request Row) :=
  program.request server.shared (server.party index)

def locksAfter (program : Program Shared Party Row) (server : Server Shared Party Row)
    (index : Nat) : List (Lock Row) :=
  if program.ended (program.perform server.shared (server.party index)).2 then
    server.locks.filter fun lock => lock.owner ≠ index
  else server.locks ++ ((program.next server index).map fun request =>
    { toRequest := request, owner := index }).toList

def proceed (program : Program Shared Party Row) (server : Server Shared Party Row) (index : Nat) :
    Server Shared Party Row where
  toWorld := server.toWorld.turn index (program.perform server.shared (server.party index)).1
    (program.perform server.shared (server.party index)).2
  locks := program.locksAfter server index

def turn [DecidableEq Row] (program : Program Shared Party Row)
    (server : Server Shared Party Row) (index : Nat) : Server Shared Party Row :=
  if server.grants index (program.next server index) then program.proceed server index else server

variable (program : Program Shared Party Row) (server : Server Shared Party Row) (index : Nat)

@[simp] theorem proceed_shared : (program.proceed server index).shared =
    (program.perform server.shared (server.party index)).1 := rfl

@[simp] theorem proceed_own : (program.proceed server index).party index =
    (program.perform server.shared (server.party index)).2 :=
  World.turn_own ..

@[simp] theorem proceed_other {other : Nat} (different : other ≠ index) :
    (program.proceed server index).party other = server.party other :=
  World.turn_other _ _ _ different

/-- `left` waits for a lock on `row` that `right` holds. -/
def WaitsFor (program : Program Shared Party Row) (server : Server Shared Party Row)
    (left right : Nat) (row : Row) : Prop :=
  left ≠ right ∧ ∃ request lock, program.next server left = some request ∧ lock ∈ server.locks ∧
    lock.owner = right ∧ request.row = row ∧ lock.row = row ∧
    lock.mode.conflicts request.mode = true

def Crossed (program : Program Shared Party Row) (server : Server Shared Party Row)
    (left right : Nat) (first second : Row) : Prop :=
  program.WaitsFor server left right first ∧ program.WaitsFor server right left second

variable {program : Program Shared Party Row} {server : Server Shared Party Row} {left right : Nat}
  {first second row : Row}

theorem Crossed.symm (crossed : program.Crossed server left right first second) :
    program.Crossed server right left second first :=
  ⟨crossed.2, crossed.1⟩

end Program

/-! No two transactions hold locks that conflict. -/

theorem grants_iff [DecidableEq Row] {server : Server Shared Party Row} {index : Nat}
    {request : Request Row} :
    server.grants index (some request) = true ↔ ∀ lock ∈ server.locks, lock.owner ≠ index →
      lock.row = request.row → lock.mode.conflicts request.mode = false := by
  simp [Server.grants, Lock.obstructs]

def Server.Compatible (server : Server Shared Party Row) : Prop :=
  ∀ lock ∈ server.locks, ∀ other ∈ server.locks, lock.owner ≠ other.owner →
    lock.row = other.row → lock.mode.conflicts other.mode = false

theorem Server.Compatible.turn [DecidableEq Row] {server : Server Shared Party Row}
    (compatible : server.Compatible) (program : Program Shared Party Row) (index : Nat) :
    (program.turn server index).Compatible := by
  unfold Program.turn
  split
  · rename_i granted
    change ∀ lock ∈ program.locksAfter server index, ∀ other ∈ program.locksAfter server index, _
    unfold Program.locksAfter
    split
    · intro lock member other otherMember
      exact compatible lock (List.mem_filter.mp member).1 other (List.mem_filter.mp otherMember).1
    · cases asked : program.next server index with
      | none => simpa [Server.Compatible] using compatible
      | some request =>
          rw [asked, grants_iff] at granted
          intro lock member other otherMember different sameRow
          rcases List.mem_append.mp member with old | new <;>
            rcases List.mem_append.mp otherMember with otherOld | otherNew
          · exact compatible lock old other otherOld different sameRow
          · obtain rfl := by simpa using otherNew
            exact granted lock old different sameRow
          · obtain rfl := by simpa using new
            rw [Mode.conflicts_comm]
            exact granted other otherOld different.symm sameRow.symm
          · obtain rfl := by simpa using new
            obtain rfl := by simpa using otherNew
            exact absurd rfl different
  · exact compatible

/-! Where the locks of a transaction can be read off what it has done so far. -/

def Server.Accounted (held : Party → List (Request Row)) (server : Server Shared Party Row) : Prop :=
  ∀ lock, lock ∈ server.locks ↔ lock.toRequest ∈ held (server.party lock.owner)

structure Program.Accounts (program : Program Shared Party Row) (held : Party → List (Request Row)) :
    Prop where
  releases : ∀ shared party, program.ended (program.perform shared party).2 = true →
    held (program.perform shared party).2 = []
  takes : ∀ shared party, program.ended (program.perform shared party).2 = false →
    held (program.perform shared party).2 = held party ++ (program.request shared party).toList

namespace Program

variable {program : Program Shared Party Row} {server : Server Shared Party Row} {left right : Nat}
  {first second row : Row} {held : Party → List (Request Row)}

theorem Accounts.proceed (accounts : program.Accounts held) (accounted : server.Accounted held)
    (index : Nat) : (program.proceed server index).Accounted held := by
  intro lock
  change lock ∈ program.locksAfter server index ↔ _
  unfold locksAfter
  by_cases own : lock.owner = index
  · rw [own, proceed_own]
    split
    · rename_i past
      rw [accounts.releases _ _ past]
      simp [own]
    · rename_i running
      rw [accounts.takes _ _ (Bool.eq_false_iff.mpr running), List.mem_append, List.mem_append,
        accounted, own, Option.mem_toList, Option.mem_toList,
        Option.map_eq_some_iff]
      refine or_congr Iff.rfl ⟨?_, fun asked => ⟨lock.toRequest, asked, by rw [← own]⟩⟩
      rintro ⟨request, asked, rfl⟩
      exact asked
  · rw [proceed_other _ _ _ own, ← accounted]
    split
    · simp [own]
    · rw [List.mem_append, or_iff_left]
      intro member
      obtain ⟨request, asked, rfl⟩ := Option.map_eq_some_iff.mp (Option.mem_toList.mp member)
      exact own rfl

theorem Accounts.turn [DecidableEq Row] (accounts : program.Accounts held)
    (accounted : server.Accounted held) (index : Nat) :
    (program.turn server index).Accounted held := by
  unfold Program.turn
  split
  · exact accounts.proceed accounted index
  · exact accounted

theorem waitsFor_iff (accounted : server.Accounted held) :
    program.WaitsFor server left right row ↔
      left ≠ right ∧ ∃ mode taken, program.next server left = some ⟨row, mode⟩ ∧
        ⟨row, taken⟩ ∈ held (server.party right) ∧ taken.conflicts mode = true := by
  constructor
  · rintro ⟨different, ⟨_, mode⟩, ⟨⟨_, taken⟩, owner⟩, asked, member, rfl, rfl, rfl, conflict⟩
    exact ⟨different, mode, taken, asked, (accounted _).mp member, conflict⟩
  · rintro ⟨different, mode, taken, asked, member, conflict⟩
    exact ⟨different, ⟨row, mode⟩, ⟨⟨row, taken⟩, right⟩, asked, (accounted _).mpr member, rfl, rfl,
      rfl, conflict⟩

/-- What one transaction holds, no other holds in a conflicting mode. -/
theorem held_compatible (accounted : server.Accounted held) (compatible : server.Compatible)
    (different : left ≠ right) {first second : Request Row}
    (taken : first ∈ held (server.party left)) (other : second ∈ held (server.party right))
    (same : first.row = second.row) : first.mode.conflicts second.mode = false :=
  compatible ⟨first, left⟩ ((accounted ⟨first, left⟩).mpr taken) ⟨second, right⟩
    ((accounted ⟨second, right⟩).mpr other) different same

/-- Two transactions that take the rows they compete for in one order never cross. -/
theorem not_crossed_of_ranked (accounted : server.Accounted held) (rank : Row → Nat)
    (ordered : ∀ index, index = left ∨ index = right → ∀ request taken mode,
      program.next server index = some request → taken ∈ held (server.party index) →
      taken.mode.conflicts mode = true →
      (program.next server left = some ⟨taken.row, mode⟩ ∨
        program.next server right = some ⟨taken.row, mode⟩) →
      rank taken.row < rank request.row) :
    ¬ program.Crossed server left right first second := by
  rintro ⟨waits, answers⟩
  obtain ⟨_, mode, taken, asked, member, conflict⟩ := (waitsFor_iff accounted).mp waits
  obtain ⟨_, other, own, otherAsked, ownMember, otherConflict⟩ := (waitsFor_iff accounted).mp answers
  have up := ordered left (Or.inl rfl) _ _ other asked ownMember otherConflict (Or.inr otherAsked)
  have down := ordered right (Or.inr rfl) _ _ mode otherAsked member conflict (Or.inl asked)
  dsimp only at up down
  omega

end Program

end RowLocks
