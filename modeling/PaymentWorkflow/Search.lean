import Mathlib.Data.List.Chain
import Mathlib.Data.List.Nodup
import Mathlib.Data.List.Perm.Subperm
import Mathlib.Logic.Relation

/-!
Depth-first and breadth-first search over a graph given by the successors of each node, and
what a finished search tells about the walks of the graph.
-/

namespace Search

variable {Node : Type}

def Edge (successors : Node → List Node) (target source : Node) : Prop :=
  target ∈ successors source

section Walks

variable {successors : Node → List Node}

/-- Where no walk goes on for ever, none comes back to its start. -/
theorem not_after_itself {node : Node} (acyclic : Acc (Edge successors) node) :
    ¬ Relation.TransGen (Edge successors) node node := by
  have deep := acyclic.transGen
  induction deep with
  | intro node _ ih => exact fun round => ih node round (acyclic) round

theorem walk_after {first : Node} {rest : List Node}
    (walk : List.IsChain (fun source target => Edge successors target source) (first :: rest)) :
    ∀ node ∈ rest, Relation.TransGen (Edge successors) node first := by
  induction rest generalizing first with
  | nil => simp
  | cons second rest ih =>
      rw [List.isChain_cons_cons] at walk
      intro node member
      rcases List.mem_cons.mp member with same | later
      · exact same ▸ .single walk.1
      · exact (ih walk.2 node later).tail walk.1

theorem walk_nodup {first : Node} {rest : List Node} (acyclic : Acc (Edge successors) first)
    (walk : List.IsChain (fun source target => Edge successors target source) (first :: rest)) :
    (first :: rest).Nodup := by
  induction rest generalizing first with
  | nil => simp
  | cons second rest ih =>
      have after := walk_after walk
      rw [List.isChain_cons_cons] at walk
      have later := ih (acyclic.inv walk.1) walk.2
      refine List.nodup_cons.mpr ⟨?_, later⟩
      intro member
      exact not_after_itself acyclic (after first member)

end Walks

def visitAll (visit : Node → List Node → Bool × List Node) : List Node → List Node →
    Bool × List Node
  | [], visited => (false, visited)
  | node :: rest, visited =>
      match visit node visited with
      | (true, after) => (true, after)
      | (false, after) => visitAll visit rest after

theorem visitAll_acc {successors : Node → List Node}
    {visit : Node → List Node → Bool × List Node} {done : List Node → Prop}
    (visits : ∀ node visited after, done visited → visit node visited = (false, after) →
      Acc (Edge successors) node ∧ done after) :
    ∀ nodes visited after, done visited → visitAll visit nodes visited = (false, after) →
      (∀ node ∈ nodes, Acc (Edge successors) node) ∧ done after := by
  intro nodes
  induction nodes with
  | nil =>
      intro visited after holds finished
      simp only [visitAll, Prod.mk.injEq, true_and] at finished
      subst finished
      exact ⟨by simp, holds⟩
  | cons node rest ih =>
      intro visited after holds finished
      simp only [visitAll] at finished
      split at finished
      · simp at finished
      rename_i between visitedNode
      have first := visits node visited between holds visitedNode
      have later := ih between after first.2 finished
      refine ⟨?_, later.2⟩
      intro other member
      rcases List.mem_cons.mp member with same | inside
      · exact same ▸ first.1
      · exact later.1 other inside

theorem visitAll_congr {visit other : Node → List Node → Bool × List Node} {targets : List Node}
    (same : ∀ node ∈ targets, ∀ visited, visit node visited = other node visited) :
    ∀ visited, visitAll visit targets visited = visitAll other targets visited := by
  induction targets with
  | nil => exact fun _ => rfl
  | cons node rest ih =>
      intro visited
      simp only [visitAll, same node List.mem_cons_self]
      split
      · rfl
      · exact ih (fun later member => same later (List.mem_cons_of_mem _ member)) _

theorem visitAll_none {visit : Node → List Node → Bool × List Node} {targets : List Node}
    (none : ∀ node ∈ targets, ∀ visited, (visit node visited).1 = false) :
    ∀ visited, (visitAll visit targets visited).1 = false := by
  induction targets with
  | nil => exact fun _ => rfl
  | cons node rest ih =>
      intro visited
      have first := none node List.mem_cons_self visited
      simp only [visitAll]
      split
      · rename_i after met
        rw [met] at first
        cases first
      · exact ih (fun later member => none later (List.mem_cons_of_mem _ member)) _

section Frontiers

variable {successors : Node → List Node} {nodes : List Node}

/-! The bounds: both searches stay among the nodes of a finite closed set. -/

def Closed (successors : Node → List Node) (nodes : List Node) : Prop :=
  ∀ node ∈ nodes, ∀ next ∈ successors node, next ∈ nodes

/-- What holds between two rounds: every node reached is still queued or has been taken. -/
structure Frontier (successors : Node → List Node) (nodes : List Node) (start : Node)
    (rounds : Nat) (queue reached : List Node) : Prop where
  nodup : reached.Nodup
  within : reached ⊆ nodes
  queued : queue ⊆ reached
  started : start ∈ reached
  walked : ∀ node ∈ reached,
    Relation.ReflTransGen (fun source target => target ∈ successors source) start node
  swept : ∀ node ∈ reached, node ∈ queue ∨ ∀ next ∈ successors node, next ∈ reached
  counted : rounds + reached.length = nodes.length + queue.length

theorem Frontier.start {start : Node} (inside : start ∈ nodes) :
    Frontier successors nodes start nodes.length [start] [start] where
  nodup := List.nodup_singleton start
  within := by simpa using inside
  queued := List.Subset.refl _
  started := List.mem_cons_self
  walked := by
    intro node member
    rw [List.mem_singleton.mp member]
  swept := fun node member => .inl member
  counted := rfl

/-- With no rounds left nothing is queued: no node is taken twice. -/
theorem Frontier.spent {start : Node} {queue reached : List Node}
    (frontier : Frontier successors nodes start 0 queue reached) : queue = [] := by
  have bound := (List.subperm_of_subset frontier.nodup frontier.within).length_le
  have counted := frontier.counted
  exact List.length_eq_zero_iff.mp (by omega)

theorem Frontier.complete {start : Node} {rounds : Nat} {reached : List Node}
    (frontier : Frontier successors nodes start rounds [] reached) {node : Node} :
    node ∈ reached ↔
      Relation.ReflTransGen (fun source target => target ∈ successors source) start node := by
  refine ⟨frontier.walked node, fun walk => ?_⟩
  induction walk with
  | refl => exact frontier.started
  | tail _ edge ih => exact ((frontier.swept _ ih).resolve_left List.not_mem_nil) _ edge

end Frontiers

section Searching

variable [DecidableEq Node]

/-- Depth-first search: whether a cycle was met, and every node visited so far. `depth` bounds
the nodes that can be on the stack at once. -/
def dfs (successors : Node → List Node) : Nat → List Node → Node → List Node → Bool × List Node
  | 0, _, _, visited => (true, visited)
  | depth + 1, onStack, current, visited =>
      if current ∈ onStack then (true, visited)
      else if current ∈ visited then (false, visited)
      else visitAll (dfs successors depth (current :: onStack)) (successors current)
        (current :: visited)

def hasCycle (successors : Node → List Node) (depth : Nat) (start : Node) : Bool :=
  (dfs successors depth [] start []).1

def unseen (reached : List Node) : List Node → List Node
  | [] => []
  | target :: rest =>
      if target ∈ reached then unseen reached rest else target :: unseen (target :: reached) rest

/-- Breadth-first search; `rounds` bounds the nodes taken from the queue. -/
def bfs (successors : Node → List Node) : Nat → List Node → List Node → List Node
  | 0, _, reached => reached
  | _ + 1, [], reached => reached
  | rounds + 1, current :: queue, reached =>
      let found := unseen reached (successors current)
      bfs successors rounds (queue ++ found) (reached ++ found)

variable {successors : Node → List Node}

theorem dfs_acc : ∀ depth onStack current visited after,
    (∀ node ∈ visited, node ∉ onStack → Acc (Edge successors) node) →
    dfs successors depth onStack current visited = (false, after) →
      Acc (Edge successors) current ∧
        ∀ node ∈ after, node ∉ onStack → Acc (Edge successors) node := by
  intro depth
  induction depth with
  | zero =>
      intro onStack current visited after _ finished
      simp [dfs] at finished
  | succ depth ih =>
      intro onStack current visited after done finished
      simp only [dfs] at finished
      split at finished
      · simp at finished
      rename_i offStack
      split at finished
      · rename_i seen
        simp only [Prod.mk.injEq, true_and] at finished
        subst finished
        exact ⟨done current seen offStack, done⟩
      · have inner : ∀ node ∈ current :: visited, node ∉ current :: onStack →
            Acc (Edge successors) node := by
          intro node member off
          simp only [List.mem_cons, not_or] at member off
          exact done node (member.resolve_left off.1) off.2
        have swept := visitAll_acc
          (fun node before later holds searched => ih (current :: onStack) node before later holds
            searched) _ _ _ inner finished
        -- every node after `current` is accessible, so `current` is
        have here : Acc (Edge successors) current := Acc.intro _ swept.1
        refine ⟨here, ?_⟩
        intro node member off
        by_cases same : node = current
        · exact same ▸ here
        · exact swept.2 node member (by simp [same, off])

theorem hasCycle_acc {depth : Nat} {start : Node} (none : hasCycle successors depth start = false) :
    Acc (Edge successors) start := by
  have finished : dfs successors depth [] start [] =
      (false, (dfs successors depth [] start []).2) := Prod.ext none rfl
  exact (dfs_acc depth [] start [] _ (by simp) finished).1

variable {nodes : List Node}

/-- A stack of different nodes is never deeper than there are nodes, so the bound on the depth
is not what stops the search. -/
theorem dfs_enough (closed : Closed successors nodes) (more : Nat) :
    ∀ depth onStack current visited, onStack.Nodup → onStack ⊆ nodes → current ∈ nodes →
      nodes.length < depth + onStack.length →
      dfs successors (depth + more) onStack current visited =
        dfs successors depth onStack current visited := by
  intro depth
  induction depth with
  | zero =>
      intro onStack current visited distinct within _ deep
      have bound := (List.subperm_of_subset distinct within).length_le
      omega
  | succ depth ih =>
      intro onStack current visited distinct within inside deep
      rw [Nat.succ_add_eq_add_succ, Nat.add_succ]
      simp only [dfs]
      split
      · rfl
      rename_i off
      split
      · rfl
      · refine visitAll_congr (fun node member later => ?_) _
        exact ih (current :: onStack) node later (List.nodup_cons.mpr ⟨off, distinct⟩)
          (List.cons_subset.mpr ⟨inside, within⟩) (closed current inside node member)
          (by simp only [List.length_cons]; omega)

/-- Every node on the stack comes before the current one, so only a cycle meets one again. -/
theorem dfs_acyclic (closed : Closed successors nodes)
    (acyclic : ∀ node, ¬ Relation.TransGen (Edge successors) node node) :
    ∀ depth onStack current visited, onStack.Nodup → onStack ⊆ nodes → current ∈ nodes →
      (∀ node ∈ onStack, Relation.TransGen (Edge successors) current node) →
      nodes.length < depth + onStack.length →
      (dfs successors depth onStack current visited).1 = false := by
  intro depth
  induction depth with
  | zero =>
      intro onStack current visited distinct within _ _ deep
      have bound := (List.subperm_of_subset distinct within).length_le
      omega
  | succ depth ih =>
      intro onStack current visited distinct within inside before deep
      simp only [dfs]
      split
      · rename_i met
        exact absurd (before current met) (acyclic current)
      rename_i off
      split
      · rfl
      · refine visitAll_none (fun node member later => ?_) _
        refine ih (current :: onStack) node later (List.nodup_cons.mpr ⟨off, distinct⟩)
          (List.cons_subset.mpr ⟨inside, within⟩) (closed current inside node member) ?_
          (by simp only [List.length_cons]; omega)
        intro earlier stacked
        have edge : Edge successors node current := member
        rcases List.mem_cons.mp stacked with same | deeper
        · exact same ▸ .single edge
        · exact .head edge (before earlier deeper)

theorem hasCycle_enough (closed : Closed successors nodes) {start : Node} (inside : start ∈ nodes)
    (more : Nat) : hasCycle successors (nodes.length + 1 + more) start =
      hasCycle successors (nodes.length + 1) start :=
  congrArg Prod.fst (dfs_enough closed more (nodes.length + 1) [] start [] List.nodup_nil
    (List.nil_subset _) inside (by simp))

theorem hasCycle_false (closed : Closed successors nodes) {start : Node} (inside : start ∈ nodes)
    (acyclic : ∀ node, ¬ Relation.TransGen (Edge successors) node node) :
    hasCycle successors (nodes.length + 1) start = false :=
  dfs_acyclic closed acyclic (nodes.length + 1) [] start [] List.nodup_nil (List.nil_subset _)
    inside (fun _ member => nomatch member) (by simp)

theorem mem_unseen {target : Node} {targets : List Node} :
    ∀ {reached : List Node}, target ∈ unseen reached targets ↔ target ∈ targets ∧ target ∉ reached := by
  induction targets with
  | nil => simp [unseen]
  | cons first rest ih =>
      intro reached
      by_cases old : first ∈ reached
      · simp only [unseen, old, if_true, ih, List.mem_cons]
        constructor
        · rintro ⟨member, new⟩
          exact ⟨.inr member, new⟩
        · rintro ⟨rfl | member, new⟩
          · exact absurd old new
          · exact ⟨member, new⟩
      · simp only [unseen, old, if_false, List.mem_cons, ih, not_or]
        constructor
        · rintro (rfl | ⟨member, _, new⟩)
          · exact ⟨.inl rfl, old⟩
          · exact ⟨.inr member, new⟩
        · rintro ⟨rfl | member, new⟩
          · exact .inl rfl
          · by_cases same : target = first
            · exact .inl same
            · exact .inr ⟨member, same, new⟩

theorem unseen_nodup {targets : List Node} : ∀ {reached : List Node},
    (unseen reached targets).Nodup := by
  induction targets with
  | nil => exact List.nodup_nil
  | cons first rest ih =>
      intro reached
      by_cases old : first ∈ reached
      · simpa only [unseen, old, if_true] using ih
      · simp only [unseen, old, if_false, List.nodup_cons, mem_unseen]
        exact ⟨fun again => again.2 List.mem_cons_self, ih⟩

theorem Frontier.next (closed : Closed successors nodes) {start current : Node} {rounds : Nat}
    {queue reached : List Node}
    (frontier : Frontier successors nodes start (rounds + 1) (current :: queue) reached) :
    Frontier successors nodes start rounds
      (queue ++ unseen reached (successors current))
      (reached ++ unseen reached (successors current)) where
  nodup := by
    refine List.nodup_append.mpr ⟨frontier.nodup, unseen_nodup, ?_⟩
    rintro node old other new rfl
    exact (mem_unseen.mp new).2 old
  within := by
    refine List.append_subset.mpr ⟨frontier.within, fun node new => ?_⟩
    exact closed current (frontier.within (frontier.queued List.mem_cons_self)) node
      (mem_unseen.mp new).1
  queued := by
    refine List.append_subset.mpr ⟨fun node member => ?_, List.subset_append_right _ _⟩
    exact List.mem_append_left _ (frontier.queued (List.mem_cons_of_mem _ member))
  started := List.mem_append_left _ frontier.started
  walked := by
    intro node member
    rcases List.mem_append.mp member with old | new
    · exact frontier.walked node old
    · exact (frontier.walked current (frontier.queued List.mem_cons_self)).tail
        (mem_unseen.mp new).1
  swept := by
    intro node member
    have later : ∀ target ∈ successors current,
        target ∈ reached ++ unseen reached (successors current) := by
      intro target leads
      by_cases old : target ∈ reached
      · exact List.mem_append_left _ old
      · exact List.mem_append_right _ (mem_unseen.mpr ⟨leads, old⟩)
    rcases List.mem_append.mp member with old | new
    · rcases frontier.swept node old with waiting | done
      · rcases List.mem_cons.mp waiting with rfl | behind
        · exact .inr later
        · exact .inl (List.mem_append_left _ behind)
      · exact .inr fun target leads => List.mem_append_left _ (done target leads)
    · exact .inl (List.mem_append_right _ new)
  counted := by
    have counted := frontier.counted
    simp only [List.length_append, List.length_cons] at counted ⊢
    omega

theorem Frontier.mem_bfs (closed : Closed successors nodes) {start node : Node} :
    ∀ {rounds : Nat} {queue reached : List Node},
      Frontier successors nodes start rounds queue reached →
      (node ∈ bfs successors rounds queue reached ↔
        Relation.ReflTransGen (fun source target => target ∈ successors source) start node) := by
  intro rounds
  induction rounds with
  | zero =>
      intro queue reached frontier
      obtain rfl := frontier.spent
      exact frontier.complete
  | succ rounds ih =>
      intro queue reached frontier
      cases queue with
      | nil => exact frontier.complete
      | cons current queue => exact ih (frontier.next closed)

theorem Frontier.bfs_enough (closed : Closed successors nodes) {start : Node} (more : Nat) :
    ∀ {rounds : Nat} {queue reached : List Node},
      Frontier successors nodes start rounds queue reached →
      bfs successors (rounds + more) queue reached = bfs successors rounds queue reached := by
  intro rounds
  induction rounds with
  | zero =>
      intro queue reached frontier
      obtain rfl := frontier.spent
      cases h : 0 + more <;> rfl
  | succ rounds ih =>
      intro queue reached frontier
      rw [Nat.succ_add_eq_add_succ, Nat.add_succ]
      cases queue with
      | nil => rfl
      | cons current queue => exact ih (frontier.next closed)

end Searching

end Search
