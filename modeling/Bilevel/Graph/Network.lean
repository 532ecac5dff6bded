import Bilevel.Graph.Directed
import Bilevel.Graph.Ring
import Bilevel.Sampling.Source
import Bilevel.Request

/-!
# Bilevel.Graph.Network

Random directed networks with a source and a sink that can be reached from it.

* Each edge of an undirected graph gets one of its two directions (`Digraph.orient`).
* The node that is written as zero is the source. When nothing can be reached from it, all arcs into
  it are turned round (`Digraph.openSource`).
* The sink is one of the nodes that can be reached.
* A `NamedNetwork` also says how the nodes and arcs are written.
* `Network.generateFrom` draws a network with any generator, from the state in which it is.
-/

namespace Bilevel

/-- The arcs of an orientation: an edge is kept as it is or turned round. -/
def Digraph.orient (n : Nat) (edges : List (Nat × Nat)) (keep : List Bool) : Digraph :=
  (edges.zipWith (fun e k => if k then e else (e.2, e.1)) keep).foldl addArc (discrete n)

/-- Turns all arcs into `s` round, one after the other, if nothing can be reached from `s`. -/
def Digraph.openSource (g : Digraph) (s : Nat) : Digraph :=
  if (g.descendants s).isEmpty then
    (g.predecessors s).foldl (fun g u => (g.removeArc (u, s)).addArc (s, u)) g
  else g

/-- A directed graph with a source and a sink. -/
structure Network where
  graph : Digraph
  /-- The number of arcs, counted before any arc was turned round. -/
  arcCount : Nat
  source : Nat
  sink : Nat
  deriving Repr, DecidableEq

/-- A network, and how its nodes and arcs are written. -/
structure NamedNetwork (α : Type) extends Network where
  /-- The nodes as they are written, in order. -/
  nodeNames : List (Datum α)
  /-- The arcs as they are written, in order. -/
  arcNames : List (Datum α × Datum α)
  /-- The integer that the sink stands for. -/
  finish : Int

namespace Network

open Sampling

variable {α σ : Type} [Scalar α]

/-- The integer that the source stands for. -/
def start : Int := 0

/-- A network whose sink has not been picked yet. -/
structure Opened where
  graph : Digraph
  arcCount : Nat
  source : Nat
  /-- The nodes that can be reached from the source, in order. -/
  sinks : List Nat

/-- The network without a sink that the drawn directions of the edges give. -/
def opened (names : Names α) (g : Graph) (keep : List Bool) : Except GraphFault Opened :=
  let drawn := Digraph.orient g.size g.pairs keep
  match names.find? (.int start) with
  | none => .error .noSource
  | some source => do
    let graph := drawn.openSource source
    return ⟨graph, drawn.ordered.length, source, ← names.sorted (graph.descendants source)⟩

/-- The network whose sink is picked by a number, of which only the remainder matters. -/
def Opened.withSink (o : Opened) (pick : Nat) : Except GraphFault Network :=
  match o.sinks[pick % o.sinks.length]? with
  | some sink => return ⟨o.graph, o.arcCount, o.source, sink⟩
  | none => throw .noSink

/-- The network that some draws give: one for each edge, and a number that picks the sink. -/
def ofDraws (names : Names α) (g : Graph) (keep : List Bool) (pick : Nat) :
    Except GraphFault Network := do
  (← opened names g keep).withSink pick

/-- How the head of an arc is written. Edges go from the smaller node to the greater one, and an arc
with the direction of its edge has its head written as it is beside the tail. An edge from a node to
itself has both directions; `turned` says whether it was turned round. -/
def headName (names : Names α) (turned : Nat → Bool) (a : Nat × Nat) : Datum α :=
  if a.1 < a.2 ∨ (a.1 = a.2 ∧ !turned a.1) then names.beside a.1 a.2 else names.name a.2

/-- How the arcs of a network are written. -/
def written (network : Network) (names : Names α) (pairs : List (Nat × Nat)) (keep : List Bool) :
    List (Datum α × Datum α) :=
  let opened := ((Digraph.orient network.graph.size pairs keep).descendants network.source).isEmpty
  let loops := (pairs.zip keep).filter fun ((u, v), _) => u = v
  let turned (u : Nat) : Bool :=
    (loops.lookup (u, u)).any fun kept => kept == (opened && u = network.source)
  network.graph.ordered.map fun a => (names.name a.1, headName names turned a)

/-- A network with the names of its nodes and arcs. -/
def named (network : Network) (g : NamedGraph α) (keep : List Bool) :
    Except GraphFault (NamedNetwork α) := do
  return { network with
    nodeNames := (List.range network.graph.size).map g.names.name
    arcNames := network.written g.names g.graph.pairs keep
    finish := ← g.names.number network.sink }

/-- The network that some draws give, with the names of its nodes and arcs. -/
def namedOfDraws (g : NamedGraph α) (keep : List Bool) (pick : Nat) :
    Except GraphFault (NamedNetwork α) := do
  (← ofDraws g.names g.graph keep pick).named g keep

/-- Where the undirected graph comes from. -/
inductive Origin (α : Type) where
  /-- A ring of nodes. -/
  | ring
  /-- A sequence of edges. -/
  | given (edges : Datum α)

/-- The undirected graph of `n` nodes. Where the edges are given, `k` is not looked at, and the
edges may bring in more nodes. -/
def base (origin : Origin α) (n k : Datum α) : Except GraphFault (NamedGraph α) :=
  match origin with
  | .ring => Graph.ring n k
  | .given edges =>
    match n.whole? with
    | some n => NamedGraph.ofEdges n edges
    | none => .error .noSize

/-- What was asked of the undirected graph, for the record. -/
structure BaseNote (α : Type) where
  n : Datum α
  k : Datum α
  rewiring : α
  seed : Nat

/-- Draws the sink of a network whose edges have directions, among the nodes that can be reached. -/
def drawSink (g : Generator σ) (base : NamedGraph α) (keep : List Bool) :
    StateM σ (Except GraphFault (NamedNetwork α)) :=
  match opened base.names base.graph keep with
  | .error why => return .error why
  | .ok o => do
    let pick ← g.below o.sinks.length
    return do (← o.withSink pick).named base keep

/-- Draws a network: a direction for each edge, and then the sink. -/
def draw (g : Generator σ) (base : NamedGraph α) :
    StateM σ (Except GraphFault (NamedNetwork α)) := do
  let keep ← many base.graph.pairs.length (g.below 2)
  drawSink g base (keep.map (· != 0))

/-- A random network from the draws of a generator in the given state, and the note about its
undirected graph. -/
def generateFrom (g : Generator σ) (state : σ) (origin : Origin α) (n k : Datum α) (rewiring : α) :
    Except GraphFault (NamedNetwork α × BaseNote α) := do
  let (baseSeed, state) := g.freshSeed state
  let base ← base origin n k
  let network ← (draw g base state).1
  return (network, ⟨n, k, rewiring, baseSeed⟩)

end Network

/-- What is asked of a random network. -/
structure NetworkRequest (α : Type) where
  n : Datum α
  k : Datum α
  rewiring : α
  seed : Option Int

namespace NetworkRequest

open Sampling

variable {α σ : Type} [Scalar α]

/-- A request by names. All but the seed are needed. The seed is looked at first, then the share of
rewired edges; the numbers of nodes and neighbours are kept as they are. -/
def ofRequest (r : Request α) : Except (Fault α) (NetworkRequest α) :=
  match r.known ["n", "k", "p", "seed"], r.lookup "n", r.lookup "k", r.lookup "p" with
  | true, some n, some k, some p => do
    let seed ← Request.seed (r.get "seed" .null)
    return { n, k, rewiring := ← Request.number p, seed }
  | _, _, _, _ => throw .arguments

/-- The network that a request asks for, from the draws of a generator in the given state. -/
def generateFrom (g : Generator σ) (state : σ) (r : NetworkRequest α) (origin : Network.Origin α) :
    Except (Fault α) (NamedNetwork α × Network.BaseNote α) :=
  match Network.generateFrom g state origin r.n r.k r.rewiring with
  | .ok result => .ok result
  | .error why => .error (.graph why)

/-- The network that a request asks for, with the generator that is used. -/
def generate (r : NetworkRequest α) (origin : Network.Origin α) :
    Except (Fault α) (NamedNetwork α × Network.BaseNote α) :=
  r.generateFrom Generator.linear (Source.ofSeed r.seed) origin

end NetworkRequest
end Bilevel
