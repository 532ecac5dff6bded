import Bilevel.Graph.Network
import Bilevel.Log

/-!
# Bilevel.Toll.Network

Networks on which some arcs can be charged.

* A `TollNetwork` is a network with a weight for each arc and the arcs that can be charged. Arcs are
  numbered in the order of the network, which `TollNetwork.arcs` lists.
* `TollNetwork.draw` draws the weights first, with any generator, so that they do not depend on how
  many arcs can be charged.
-/

namespace Bilevel

/-- A network with weights and the arcs that can be charged. -/
structure TollNetwork (α : Type) extends NamedNetwork α where
  /-- One weight for each arc, by its number. -/
  weights : List Nat
  /-- The numbers of the arcs that can be charged, in ascending order. -/
  tolled : List Nat

namespace TollNetwork

variable {α σ : Type}

/-- The arcs by their numbers. -/
def arcs (t : TollNetwork α) : List (Nat × Nat) :=
  t.graph.ordered

/-- The arcs that can be charged, as they are written. -/
def tolledArcs (t : TollNetwork α) : List (Datum α × Datum α) :=
  t.tolled.filterMap fun e => t.arcNames[e]?

/-- The line about a new network. -/
def logLine (t : TollNetwork α) : LogLine :=
  ⟨.info, "BilevelTollSetting",
    "Graph with " ++ toString t.graph.size ++ " nodes, " ++
      toString t.arcCount ++ " arcs, s = " ++ toString Network.start ++ ", t = " ++
      toString t.finish ++ ", tolled arcs: [" ++ ", ".intercalate (t.tolled.map toString) ++
      "]."⟩

open Sampling

/-- Weights are drawn from zero to this number times the number of nodes. -/
def weightFactor : Nat := 10

/-- Draws the weights, and then the arcs that can be charged. -/
def draw (g : Generator σ) (network : NamedNetwork α) (n : Int) (k : Nat) :
    StateM σ (TollNetwork α) := do
  let weights ← many network.graph.ordered.length (g.below (weightFactor * n + 1).toNat)
  let chosen ← g.select k network.arcCount
  return { network with weights, tolled := chosen.mergeSort (· ≤ ·) }

end TollNetwork
end Bilevel
