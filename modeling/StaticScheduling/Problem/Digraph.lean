/-!
# Cycles in a directed graph

`Digraph.faulty?` looks for a node on a cycle.  A depth-first search lists the
nodes, the one finished last first; on the way a node with an edge to itself is
reported at once.  Then the nodes are searched from in that order, against the
edges: if there is no cycle, every search visits nothing but the node it starts
from, and otherwise the second node that one of them visits lies on a cycle.
-/

namespace StaticScheduling

structure Edge (Label : Type) where
  source : Nat
  target : Nat
  label : Label
deriving DecidableEq, Repr, Inhabited

/-- A graph on the nodes below `size`.  Edges may be parallel and are kept in the order added. -/
structure Digraph (Label : Type) where
  size : Nat
  edges : List (Edge Label)
deriving DecidableEq, Repr, Inhabited

namespace Digraph

variable {Label : Type}

/-- The graph with only those edges whose label satisfies `keep`. -/
def restrict (graph : Digraph Label) (keep : Label → Bool) : Digraph Label :=
  { graph with edges := graph.edges.filter fun edge => keep edge.label }

def targets (graph : Digraph Label) (node : Nat) : List Nat :=
  (graph.edges.filter fun edge => edge.source = node).map Edge.target

/-- A depth-first search under way: the nodes not seen yet, those to be visited, the next one first,
and those finished, the last one first. -/
structure Search where
  unseen : List Nat
  pending : List Nat
  finished : List Nat
deriving DecidableEq, Repr, Inhabited

def remove (node : Nat) (nodes : List Nat) : List Nat := nodes.filter (· ≠ node)

theorem length_remove_lt {node : Nat} {nodes : List Nat} (present : node ∈ nodes) :
    (remove node nodes).length < nodes.length :=
  List.length_filter_lt_length_iff_exists.mpr ⟨node, present, by simp⟩

/-- The search when the node on top is seen for the first time.  It stays below what is reached from
it, to be met once more. -/
def Search.discover (graph : Digraph Label) (state : Search) (node : Nat) : Search where
  unseen := remove node state.unseen
  pending := (graph.targets node).filter (· ∈ remove node state.unseen) ++ state.pending
  finished := state.finished

/-- The search when the node on top was seen before: everything reached from it is finished, and now
it is. -/
def Search.finish (state : Search) (node : Nat) (below : List Nat) : Search :=
  { state with
    pending := below
    finished := if node ∈ state.finished then state.finished else node :: state.finished }

/-- Goes on with a search until nothing is pending.  Answers the nodes not seen and those finished,
or a node with an edge to itself. -/
def search (graph : Digraph Label) (state : Search) : Except Nat Search :=
  match _ : state.pending with
  | [] => .ok state
  | node :: below =>
    if _ : node ∈ state.unseen then
      if node ∈ graph.targets node then
        .error node
      else
        graph.search (state.discover graph node)
    else
      graph.search (state.finish node below)
termination_by (state.unseen.length, state.pending.length)
decreasing_by
  -- fewer nodes are unseen
  · apply Prod.Lex.left
    exact length_remove_lt ‹_›
  -- as many are unseen, fewer are pending
  · rw [show state.pending = node :: below from ‹_›]
    exact Prod.Lex.right _ (by simp [Search.finish])

/-- Searches from every node that the searches before did not reach. -/
def searchFrom (graph : Digraph Label) : List Nat → Search → Except Nat Search
  | [], state => .ok state
  | root :: roots, state =>
    if root ∈ state.unseen then
      match graph.search { state with pending := [root] } with
      | .error node => .error node
      | .ok state => graph.searchFrom roots state
    else
      graph.searchFrom roots state

/-- The nodes, the one finished last first, or a node with an edge to itself. -/
def order (graph : Digraph Label) : Except Nat (List Nat) :=
  (graph.searchFrom (List.range graph.size) ⟨List.range graph.size, [], []⟩).map Search.finished

def sources (graph : Digraph Label) (node : Nat) : List Nat :=
  (graph.edges.filter fun edge => edge.target = node).map Edge.source

/-- The first pending node that was not visited, with the nodes visited and those pending then.  It
makes the nodes pending from which an edge leads to it. -/
def retreat (graph : Digraph Label) (visited : List Nat) :
    List Nat → Option (Nat × List Nat × List Nat)
  | [] => none
  | node :: below =>
    if node ∈ visited then
      graph.retreat visited below
    else
      some (node, node :: visited,
        (graph.sources node).filter (· ∉ node :: visited) ++ below)

/-- Searches against the edges, from one node after the other, and answers the second node that one
of these searches visits. -/
def secondVisited? (graph : Digraph Label) (visited : List Nat) : List Nat → Option Nat
  | [] => none
  | root :: roots =>
    match graph.retreat visited [root] with
    | none => graph.secondVisited? visited roots
    | some (_, visited, pending) =>
      match graph.retreat visited pending with
      | some (second, _, _) => some second
      | none => graph.secondVisited? visited roots

/-- A node on a cycle, if there is a cycle. -/
def faulty? (graph : Digraph Label) : Option Nat :=
  match graph.order with
  | .error node => some node
  | .ok order => graph.secondVisited? [] order

end Digraph

end StaticScheduling
