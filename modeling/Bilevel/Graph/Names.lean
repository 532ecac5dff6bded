import Bilevel.Datum.Order
import Bilevel.Graph.Fault
import Bilevel.Graph.Undirected

/-!
# Bilevel.Graph.Names

How the nodes of a graph are written.

* Inside a graph a node is a number. `Names` says what stands for it outside: for the nodes below
  `Names.plain` the number itself, for the others values of any kind, in the order in which they
  came up.
* Equal values name the same node (`Datum.same`), so that a node can be written in several ways. As
  a rule it is written as it was the first time; `Names.beside` is how it is written next to one of
  its neighbours.
* A `NamedGraph` is built from values: `NamedGraph.addItem` adds a node, `NamedGraph.join` an edge.
-/

namespace Bilevel

/-- How the nodes of a graph are written. -/
structure Names (α : Type) where
  /-- The nodes below this number are written as integers. -/
  plain : Nat
  /-- How the other nodes are written. -/
  others : List (Datum α) := []
  /-- For each node the neighbours that are written in another way beside it. -/
  variants : Array (List (Nat × Datum α)) := #[]

namespace Names

variable {α : Type}

/-- How a node is written. -/
def name (names : Names α) (v : Nat) : Datum α :=
  if v < names.plain then .int v else names.others.getD (v - names.plain) (.int v)

theorem name_of_lt (names : Names α) {v : Nat} (h : v < names.plain) : names.name v = .int v := by
  rw [name, if_pos h]

variable [Scalar α]

/-- The node that a value names. -/
def find? (names : Names α) (d : Datum α) : Option Nat :=
  match d.integral?.filter fun n : Int => 0 ≤ n && n < names.plain with
  | some n => some n.toNat
  | none => (names.others.findIdx? (·.same d)).map (names.plain + ·)

/-- A plain node is named by its number. -/
theorem find?_int (names : Names α) {v : Nat} (h : v < names.plain) :
    names.find? (.int v) = some v := by
  have hv : (0 : Int) ≤ v ∧ (v : Int) < names.plain := by omega
  simp [find?, Datum.integral?, Datum.whole?, Option.filter, hv.1, hv.2]

/-- How the node `v` is written beside its neighbour `u`. -/
def beside (names : Names α) (u v : Nat) : Datum α :=
  ((names.variants.getD u []).lookup v).getD (names.name v)

/-- Whether a value looks like the name of the node that it names. -/
def alike : Datum α → Datum α → Bool
  | .int _, .int _ | .bool _, .bool _ | .text _, .text _ => true
  | _, _ => false

/-- Takes note of how the node `v` is written beside its neighbour `u`. -/
def note (names : Names α) (u v : Nat) (d : Datum α) : Names α :=
  if alike (names.name v) d then names
  else { names with variants := names.variants.modify u (· ++ [(v, d)]) }

/-- Takes note of how the two ends of an edge are written. -/
def noteEdge (names : Names α) (u v : Nat) (a b : Datum α) : Names α :=
  let names := names.note u v b
  if u = v then names else names.note v u a

/-- Nodes in the order of what they are written as. Numbers can be put in order, and so can texts,
but not both together. -/
def sorted (names : Names α) (vs : List Nat) : Except GraphFault (List Nat) :=
  let texts := vs.countP fun v => match names.name v with | .text _ => true | _ => false
  if vs.length ≤ 1 ∨ texts = 0 ∨ texts = vs.length then
    .ok (vs.mergeSort fun u v => (names.name u).exceeds? (names.name v) != some true)
  else .error .unordered

/-- The integer that a node stands for. -/
def number (names : Names α) (v : Nat) : Except GraphFault Int :=
  match names.name v with
  | .real x =>
    match Datum.truncated? x with
    | some n => .ok n
    | none => .error (if Scalar.eq x x then .endless else .noNumber)
  | .text s =>
    match Numeral.integer? s with
    | some n => .ok n
    | none => .error .noNumber
  | d =>
    match d.whole? with
    | some n => .ok n
    | none => .error .noNumber

end Names

/-- A graph, and how its nodes are written. -/
structure NamedGraph (α : Type) where
  graph : Graph
  names : Names α

namespace NamedGraph

variable {α : Type} [Scalar α]

/-- A graph whose nodes are written as integers. -/
def ofGraph (g : Graph) : NamedGraph α :=
  ⟨g, { plain := g.size, variants := Array.replicate g.size [] }⟩

/-- The node that a value names. It is added if there is none so far. -/
def nodeOf (g : NamedGraph α) (d : Datum α) : Except GraphFault (Nat × NamedGraph α) :=
  match d with
  | .list _ | .object _ => .error .notNode
  | .null => .error .malformedNode
  | d =>
    match g.names.find? d with
    | some v => .ok (v, g)
    | none =>
      .ok (g.graph.size, ⟨g.graph.addNode, { g.names with
        others := g.names.others ++ [d]
        variants := g.names.variants.push [] }⟩)

/-- Adds a node. -/
def addNode (g : NamedGraph α) (d : Datum α) : Except GraphFault (NamedGraph α) := do
  return (← g.nodeOf d).2

/-- Adds an edge between two values and, where needed, its ends. -/
def join (g : NamedGraph α) (a b : Datum α) : Except GraphFault (NamedGraph α) := do
  let (u, g) ← g.nodeOf a
  let (v, g) ← g.nodeOf b
  let names := if g.graph.joins u v then g.names else g.names.noteEdge u v a b
  return ⟨g.graph.addEdge (u, v), names⟩

/-- Checks one attribute of a node: a name, which no list or object can be, and a value. -/
def checkAttribute : Datum α → Except GraphFault Unit
  | .text s => if s.length = 2 then .ok () else .error .malformedNode
  | .list [.list _, _] | .list [.object _, _] => .error .notNode
  | .list items => if items.length = 2 then .ok () else .error .malformedNode
  | .object fields => if fields.length = 2 then .ok () else .error .malformedNode
  | _ => .error .notNode

/-- Checks the attributes of a node. -/
def checkAttributes : Datum α → Except GraphFault Unit
  | .object _ => .ok ()
  | .list items => items.forM checkAttribute
  | .text s => if s.isEmpty then .ok () else .error .malformedNode
  | _ => .error .notNode

/-- Adds a node that may come with attributes. These are checked and left out. -/
def addItem (g : NamedGraph α) : Datum α → Except GraphFault (NamedGraph α)
  | .list [.list _, _] | .list [.object _, _] => .error .notNode
  | .list [d, attributes] => do
    checkAttributes attributes
    g.addNode d
  | .object [(name, _), (attributes, _)] => do
    checkAttributes (.text attributes : Datum α)
    g.addNode (.text name)
  | .list _ | .object _ => .error .malformedNode
  | d => g.addNode d

/-- The two ends of an edge. -/
def ends (edge : Datum α) : Except GraphFault (Datum α × Datum α) :=
  match edge.items? with
  | some [a, b] => .ok (a, b)
  | some _ => .error .malformedEdge
  | none => .error .notEdge

/-- Adds an edge that is given as a sequence of its two ends. -/
def addEdge (g : NamedGraph α) (edge : Datum α) : Except GraphFault (NamedGraph α) := do
  let (a, b) ← ends edge
  g.join a b

/-- The nodes from zero to `n`, exclusive, with a sequence of edges. -/
def ofEdges (n : Int) (edges : Datum α) : Except GraphFault (NamedGraph α) :=
  match edges.items? with
  | some items => items.foldlM addEdge (.ofGraph (Graph.discrete n.toNat))
  | none => .error .notEdge

end NamedGraph
end Bilevel
