/-!
# Dependency order

Nodes are numbered from zero in the order in which they were added, and an edge says which node
depends on which. `DependencyGraph.order` lists the nodes with dependencies first, or names a node
that lies on a cycle.

The order is the one in which a depth-first search finishes: the searches start at the nodes in
order, and go to the dependencies of a node in the order in which the edges were added. A second
search, against the edges, finds out whether there is a cycle. Both keep the nodes that they have
yet to look at on a stack, on which a node can stand more than once.
-/

namespace SymbolAtlas

structure DependencyGraph where
  size : Nat := 0
  /-- The edges in the order in which they were added, each from a node to one that it depends on. -/
  edges : List (Nat × Nat) := []
  deriving DecidableEq, Inhabited

namespace DependencyGraph

/-- The graph with one more node, whose number is the old size. -/
def addNode (g : DependencyGraph) : DependencyGraph :=
  { g with size := g.size + 1 }

/-- The graph with an edge, unless it is there already. -/
def addEdge (g : DependencyGraph) (dependent dependency : Nat) : DependencyGraph :=
  if g.edges.contains (dependent, dependency) then g
  else { g with edges := g.edges ++ [(dependent, dependency)] }

/-- What `n` depends on, in the order of the edges. -/
def dependencies (g : DependencyGraph) (n : Nat) : List Nat :=
  (g.edges.filter (·.1 == n)).map (·.2)

/-- What depends on `n`, in the order of the edges. -/
def dependents (g : DependencyGraph) (n : Nat) : List Nat :=
  (g.edges.filter (·.2 == n)).map (·.1)

/-- Pushes the nodes that are new, the last one first. -/
def push (isNew : Nat → Bool) (nodes stack : List Nat) : List Nat :=
  nodes.foldr (fun n stack => if isNew n then n :: stack else stack) stack

theorem push_eq (isNew : Nat → Bool) (nodes stack : List Nat) :
    push isNew nodes stack = nodes.filter isNew ++ stack := by
  induction nodes with
  | nil => rfl
  | cons n rest ih =>
    rw [push, List.foldr_cons, ← push, ih, List.filter_cons]
    cases isNew n <;> rfl

/-! ## Along the edges -/

/-- How far a depth-first search has come. -/
structure Search where
  discovered : List Nat := []
  /-- The finished nodes, the latest first. -/
  finished : List Nat := []

namespace Search

def isNew (s : Search) (n : Nat) : Bool :=
  !s.discovered.contains n

def discover (s : Search) (n : Nat) : Search :=
  { s with discovered := n :: s.discovered }

def finish (s : Search) (n : Nat) : Search :=
  if s.finished.contains n then s else { s with finished := n :: s.finished }

theorem isNew_discover (s : Search) (n m : Nat) :
    (s.discover n).isNew m = (m != n && s.isNew m) := by
  rw [isNew, discover, List.contains_cons, Bool.not_or]
  rfl

theorem isNew_finish (s : Search) (n : Nat) : (s.finish n).isNew = s.isNew := by
  unfold finish
  split <;> rfl

end Search

/-- How much a search with this stack has left to do: less with each look at the stack. -/
def work (g : DependencyGraph) (stack : List Nat) (s : Search) : Nat :=
  2 * g.edges.countP (s.isNew ·.1) + stack.length + stack.countP s.isNew

theorem work_finish (g : DependencyGraph) (s : Search) (n : Nat) (stack : List Nat) :
    g.work stack (s.finish n) < g.work (n :: stack) s := by
  rw [work, work, s.isNew_finish n, List.length_cons, List.countP_cons]
  omega

/-- The edges of a node are among those of new nodes until it is discovered. -/
theorem countP_discover {s : Search} {n : Nat} (hn : s.isNew n) (edges : List (Nat × Nat)) :
    edges.countP ((s.discover n).isNew ·.1) + (edges.filter (·.1 == n)).length =
      edges.countP (s.isNew ·.1) := by
  induction edges with
  | nil => rfl
  | cons e rest ih =>
    rw [List.countP_cons, List.countP_cons, List.filter_cons, s.isNew_discover]
    by_cases he : e.1 = n
    · simp only [he, bne_self_eq_false, Bool.false_and, Bool.false_eq_true, hn, beq_self_eq_true,
        if_true, if_false, List.length_cons]
      omega
    · simp only [beq_iff_eq, he, if_false, bne_iff_ne, ne_eq, not_false_eq_true, Bool.and_eq_true,
        true_and]
      omega

/-- A node that is discovered takes its edges with it, and each brings one node at most. -/
theorem work_discover (g : DependencyGraph) {s : Search} {n : Nat} (stack : List Nat)
    (hn : s.isNew n) :
    g.work (push (s.discover n).isNew (g.dependencies n) (n :: stack)) (s.discover n) <
      g.work (n :: stack) s := by
  have hedges := countP_discover hn g.edges
  have hpushed : ((g.dependencies n).filter (s.discover n).isNew).length ≤
      (g.edges.filter (·.1 == n)).length := by
    simpa [dependencies] using List.length_filter_le (s.discover n).isNew (g.dependencies n)
  have hcount := List.countP_le_length (p := (s.discover n).isNew)
    (l := (g.dependencies n).filter (s.discover n).isNew)
  have hstack : stack.countP (s.discover n).isNew ≤ stack.countP s.isNew := by
    refine List.countP_mono_left fun m _ hm => ?_
    rw [s.isNew_discover, Bool.and_eq_true] at hm
    exact hm.2
  have hself : (s.discover n).isNew n = false := by
    rw [s.isNew_discover, bne_self_eq_false, Bool.false_and]
  rw [push_eq, work, work, List.length_append, List.countP_append, List.length_cons,
    List.countP_cons, List.countP_cons, hself, hn]
  simp only [if_true, Bool.false_eq_true, if_false]
  omega

/-- Searches from the nodes of the stack. When a node is first on top it is discovered, and what it
depends on comes above it; when it is on top again it is finished. A node that depends on itself
ends the search. -/
def walk (g : DependencyGraph) : List Nat → Search → Except Nat Search
  | [], s => .ok s
  | n :: stack, s =>
    if _ : s.isNew n then
      if (g.dependencies n).contains n then .error n
      else g.walk (push (s.discover n).isNew (g.dependencies n) (n :: stack)) (s.discover n)
    else g.walk stack (s.finish n)
  termination_by stack s => g.work stack s
  decreasing_by
    · exact work_discover g stack ‹s.isNew n›
    · exact work_finish g s n stack

/-- Searches from `n`, unless it is discovered already. -/
def search (g : DependencyGraph) (s : Search) (n : Nat) : Except Nat Search :=
  if s.isNew n then g.walk [n] s else .ok s

/-- The nodes in the order opposite to the one in which they finish. -/
def finishOrder (g : DependencyGraph) : Except Nat (List Nat) :=
  ((List.range g.size).foldlM g.search {}).map (·.finished)

/-! ## Against the edges -/

/-- The next node that is visited, and what is visited and still on the stack after it. -/
def visitNext (g : DependencyGraph) (visited : List Nat) :
    List Nat → Option (Nat × List Nat × List Nat)
  | [] => none
  | n :: stack =>
    if visited.contains n then g.visitNext visited stack
    else some (n, n :: visited, push (!(n :: visited).contains ·) (g.dependents n) stack)

/-- Searches from each node of the list in turn, among the nodes that are not visited yet. The
second node of a search is one on a cycle. -/
def second? (g : DependencyGraph) (visited : List Nat) : List Nat → Option Nat
  | [] => none
  | n :: rest =>
    match g.visitNext visited [n] with
    | none => g.second? visited rest
    | some (_, visited, stack) =>
      match g.visitNext visited stack with
      | some (second, _, _) => some second
      | none => g.second? visited rest

/-- The nodes with dependencies first, or a node on a cycle. -/
def order (g : DependencyGraph) : Except Nat (List Nat) := do
  let nodes ← g.finishOrder
  match g.second? [] nodes with
  | some n => throw n
  | none => return nodes.reverse

end DependencyGraph

end SymbolAtlas
