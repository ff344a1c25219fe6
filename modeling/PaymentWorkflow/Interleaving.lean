import Mathlib.Logic.Function.Basic

/-!
Parties that take turns on a store they share: one turn changes the store and the party
that takes it, and an invariant of every party survives where the others are not disturbed.
-/

namespace Interleaving

structure World (Shared Party : Type) where
  shared : Shared
  party : Nat → Party

variable {Shared Party : Type}

namespace World

def turn (world : World Shared Party) (index : Nat) (shared : Shared) (party : Party) :
    World Shared Party :=
  ⟨shared, Function.update world.party index party⟩

@[simp] theorem turn_shared (world : World Shared Party) (index : Nat) (shared : Shared)
    (party : Party) : (world.turn index shared party).shared = shared := rfl

@[simp] theorem turn_own (world : World Shared Party) (index : Nat) (shared : Shared)
    (party : Party) : (world.turn index shared party).party index = party := by
  simp [turn]

@[simp] theorem turn_other (world : World Shared Party) {index other : Nat} (shared : Shared)
    (party : Party) (different : other ≠ index) :
    (world.turn index shared party).party other = world.party other := by
  simp [turn, different]

/-- The rule for an invariant that ties each party to the store. -/
theorem turn_each {world : World Shared Party} {index : Nat} {shared : Shared} {party : Party}
    {holds : Shared → Nat → Party → Prop}
    (each : ∀ other, holds world.shared other (world.party other))
    (own : holds shared index party)
    (stable : ∀ other, other ≠ index → holds world.shared other (world.party other) →
      holds shared other (world.party other)) :
    ∀ other, holds (world.turn index shared party).shared other
      ((world.turn index shared party).party other) := by
  intro other
  by_cases same : other = index
  · subst same
    simpa using own
  · simpa [same] using stable other same (each other)

/-- The rule for an invariant of two different parties and the store. -/
theorem turn_pairs {world : World Shared Party} {index : Nat} {shared : Shared} {party : Party}
    {apart : Shared → Party → Party → Prop}
    (symmetric : ∀ {left right}, apart shared left right → apart shared right left)
    (pairs : ∀ left right, left ≠ right →
      apart world.shared (world.party left) (world.party right))
    (own : ∀ other, other ≠ index → apart shared party (world.party other))
    (stable : ∀ left right, left ≠ index → right ≠ index → left ≠ right →
      apart world.shared (world.party left) (world.party right) →
      apart shared (world.party left) (world.party right)) :
    ∀ left right, left ≠ right →
      apart (world.turn index shared party).shared ((world.turn index shared party).party left)
        ((world.turn index shared party).party right) := by
  intro left right different
  by_cases isLeft : left = index
  · subst isLeft
    simpa [different.symm] using own right different.symm
  · by_cases isRight : right = index
    · subst isRight
      simpa [isLeft] using symmetric (own left isLeft)
    · simpa [isLeft, isRight] using
        stable left right isLeft isRight different (pairs left right different)

end World

end Interleaving
