import Bilevel.Graph.Reach
import Bilevel.Graph.Undirected

/-!
# Bilevel.Graph.Directed

Directed graphs that remember the order in which their arcs were added.

* The nodes of a graph are the numbers below `Digraph.size`.
* `Digraph.successors`, `Digraph.predecessors` and `Digraph.ordered` give the arcs of a node and all
  arcs in the order of the nodes.
* `Digraph.descendants` are the other nodes that paths lead to.
-/

namespace Bilevel

/-- A directed graph, by the heads of the arcs that leave a node and the tails of those that enter
it. -/
structure Digraph where
  leaving : Links
  entering : Links
  deriving Repr, DecidableEq

namespace Digraph

/-- As many nodes, and no arc. -/
def discrete (n : Nat) : Digraph :=
  ⟨Array.replicate n [], Array.replicate n []⟩

/-- The number of nodes. -/
def size (g : Digraph) : Nat :=
  g.leaving.size

/-- Adds an arc at the end. An arc that is there already stays where it is. -/
def addArc (g : Digraph) (a : Nat × Nat) : Digraph :=
  ⟨g.leaving.add a.1 a.2, g.entering.add a.2 a.1⟩

/-- Takes an arc out. -/
def removeArc (g : Digraph) (a : Nat × Nat) : Digraph :=
  ⟨g.leaving.remove a.1 a.2, g.entering.remove a.2 a.1⟩

@[simp] theorem size_addArc (g : Digraph) (a : Nat × Nat) : (g.addArc a).size = g.size := by
  simp [addArc, size]

@[simp] theorem size_removeArc (g : Digraph) (a : Nat × Nat) : (g.removeArc a).size = g.size := by
  simp [removeArc, size]

/-- The heads of the arcs that leave a node. -/
def successors (g : Digraph) (u : Nat) : List Nat :=
  g.leaving.linked u

/-- The tails of the arcs that enter a node. -/
def predecessors (g : Digraph) (v : Nat) : List Nat :=
  g.entering.linked v

/-- All arcs in the order of the nodes that they leave. -/
def ordered (g : Digraph) : List (Nat × Nat) :=
  g.leaving.all

/-- For each node the number of arcs before its own in `ordered`. -/
def firsts (g : Digraph) : Array Nat :=
  (g.leaving.foldl (fun (counts, n) heads => (counts.push n, n + heads.length)) (#[], 0)).1

/-- The number of an arc in `ordered`, from `firsts`. -/
def numberFrom (g : Digraph) (firsts : Array Nat) (a : Nat × Nat) : Nat :=
  firsts.getD a.1 0 + (g.successors a.1).idxOf a.2

/-- The nodes other than `s` that can be reached from `s`. -/
def descendants (g : Digraph) (s : Nat) : List Nat :=
  (Graph.reached g.successors g.size s).filter (· != s)

end Digraph
end Bilevel
