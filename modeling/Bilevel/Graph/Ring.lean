import Bilevel.Graph.Names
import Bilevel.Graph.Reach

/-!
# Bilevel.Graph.Ring

Rings in which each node is joined to its nearest neighbours.

* `Graph.wreath` joins each node to half the number of its neighbours on either side; with as many
  neighbours as nodes the graph is complete (`Graph.complete`).
* `Graph.ring` takes the numbers of nodes and neighbours as values of any kind. Two lists can be
  compared as well as two numbers, and a list that is equal to another one makes a complete graph of
  its items (`Graph.completeOn`).
* A ring has to hang together (`Graph.isConnected`).
-/

namespace Bilevel
namespace Graph

/-- Whether all nodes can be reached from the first one. -/
def isConnected (g : Graph) : Bool :=
  (reached g.neighbours g.size 0).length = g.size

/-- The pairs of a list, each with the item that comes first in front. -/
def couples {β : Type} : List β → List (β × β)
  | [] => []
  | u :: rest => rest.map (u, ·) ++ couples rest

/-- The complete graph on so many nodes. -/
def complete (n : Nat) : Graph :=
  ofEdges n (couples (List.range n))

/-- The ring in which each node is joined to the `half` nodes that follow it. -/
def wreath (n half : Nat) : Graph :=
  ofEdges n ((List.range' 1 half).flatMap fun j => (List.range n).map fun u => (u, (u + j) % n))

/-- How many nodes there are, if so many can be listed. -/
def nodeCount (n : Int) : Except GraphFault Nat :=
  match Capacity.check Memory.standard.items n with
  | .error why => .error (.capacity why)
  | .ok () => if n < 0 then .error .noRing else .ok n.toNat

variable {α : Type} [Scalar α]

/-- A graph, provided that it is connected. -/
def connected (g : NamedGraph α) : Except GraphFault (NamedGraph α) :=
  if g.graph.size = 0 then .error .empty
  else if g.graph.isConnected then .ok g
  else .error .disconnected

/-- The graph without edges whose nodes are listed. -/
def emptyOn (items : List (Datum α)) : Except GraphFault (NamedGraph α) :=
  items.foldlM NamedGraph.addItem (.ofGraph (discrete 0))

/-- The complete graph on as many nodes as a number says, or on the items of a sequence. -/
def completeOn (n : Datum α) : Except GraphFault (NamedGraph α) :=
  match n.items?, n.whole? with
  | some items, _ => do
    (couples items).foldlM (fun g (a, b) => g.join a b) (← emptyOn items)
  | none, some n => do return .ofGraph (complete (← nodeCount n))
  | none, none => throw .noSize

/-- The ring of as many nodes as a number says. A sequence of nodes is looked at, but there is no
ring of them. -/
def ringOn (n k : Datum α) : Except GraphFault (NamedGraph α) :=
  match n.items?, n.whole? with
  | some items, _ => do
    let _ ← emptyOn items
    throw .noSize
  | none, some n => do
    let n ← nodeCount n
    match k.whole? with
    | some k => return .ofGraph (wreath n (k / 2).toNat)
    | none => throw .noSize
  | none, none => throw .noSize

/-- A ring of `n` nodes with `k` neighbours each. -/
def ring (n k : Datum α) : Except GraphFault (NamedGraph α) := do
  match k.exceeds? n with
  | none => throw .noSize
  | some true => throw .noRing
  | some false => connected (← if k.same n then completeOn n else ringOn n k)

end Graph
end Bilevel
