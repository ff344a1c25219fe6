import Mathlib.Data.List.Chain

/-! Deterministic machines that may get stuck, and the states they pass. -/

structure Machine (State Input : Type) where
  start : State
  next : State → Input → Option State

namespace Machine

variable {State Input Item : Type}

def runFrom (machine : Machine State Input) : State → List Input → Option State
  | state, [] => some state
  | state, input :: rest => (machine.next state input).bind fun after => machine.runFrom after rest

def pathFrom (machine : Machine State Input) : State → List Input → Option (List State)
  | state, [] => some [state]
  | state, input :: rest =>
      (machine.next state input).bind fun after => (machine.pathFrom after rest).map (state :: ·)

def run (machine : Machine State Input) : List Input → Option State :=
  machine.runFrom machine.start

def path (machine : Machine State Input) : List Input → Option (List State) :=
  machine.pathFrom machine.start

theorem runFrom_append (machine : Machine State Input) (inputs : List Input) (input : Input) :
    ∀ state, machine.runFrom state (inputs ++ [input]) =
      (machine.runFrom state inputs).bind fun after => machine.next after input := by
  induction inputs with
  | nil =>
      intro state
      simp [runFrom]
  | cons first rest ih =>
      intro state
      simp only [List.cons_append, runFrom, ih, Option.bind_assoc]

theorem run_append (machine : Machine State Input) (inputs : List Input) (input : Input) :
    machine.run (inputs ++ [input]) =
      (machine.run inputs).bind fun state => machine.next state input :=
  machine.runFrom_append inputs input machine.start

theorem runFrom_of_pathFrom {machine : Machine State Input} : ∀ {inputs : List Input}
    {state : State} {states : List State}, machine.pathFrom state inputs = some states →
      machine.runFrom state inputs = states.getLast? := by
  intro inputs
  induction inputs with
  | nil =>
      intro state states passed
      simp only [pathFrom, Option.some.injEq] at passed
      subst passed
      rfl
  | cons input rest ih =>
      intro state states passed
      obtain ⟨after, next, mapped⟩ := Option.bind_eq_some_iff.mp passed
      obtain ⟨tail, through, rfl⟩ := Option.map_eq_some_iff.mp mapped
      have nonempty : tail ≠ [] := by
        cases rest with
        | nil => simp [pathFrom, eq_comm] at through; simp [through]
        | cons other rest =>
            obtain ⟨_, _, inner⟩ := Option.bind_eq_some_iff.mp through
            obtain ⟨_, _, rfl⟩ := Option.map_eq_some_iff.mp inner
            simp
      rw [runFrom, next, Option.bind_some, ih through, List.getLast?_cons,
        List.getLast?_eq_some_getLast nonempty, Option.getD_some]

/-- Items that each lead to the next give the inputs of the machine, all but the last of them. -/
theorem pathFrom_of_chain {machine : Machine State Input} {state : Item → State}
    {input : Item → Input} : ∀ {rest : List Item} {first : Item},
      List.IsChain (fun left right => machine.next (state left) (input left) = some (state right))
        (first :: rest) →
      machine.pathFrom (state first) ((first :: rest).dropLast.map input) =
        some ((first :: rest).map state) := by
  intro rest
  induction rest with
  | nil => intro first _; rfl
  | cons second rest ih =>
      intro first chain
      obtain ⟨leads, tail⟩ := List.isChain_cons_cons.mp chain
      rw [List.dropLast_cons_of_ne_nil (by simp), List.map_cons, pathFrom, leads,
        Option.bind_some, ih tail]
      rfl

end Machine
