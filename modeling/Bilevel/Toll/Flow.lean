import Bilevel.Graph.Route
import Bilevel.Program.Evaluate
import Bilevel.Toll.Network

/-!
# Bilevel.Toll.Flow

The follower's answer as a flow.

* `TollNetwork.pathToFlow` turns a path into a flow: one on every arc of the path and zero
  elsewhere.
* `TollNetwork.shortestPathFlowBy` is the flow along a cheapest path for given tolls, found by any
  search; `TollNetwork.shortestPathFlow` uses one. The tolls are numbers, or arrays of them, as long as
  no two lengths have to be compared (`Distance`).
-/

namespace Bilevel
namespace TollNetwork

variable {α : Type} [Scalar α]

/-- The nodes of a path: the items of a list, or the characters of a text. -/
def pathNodes : Datum α → Except (Fault α) (List (Datum α))
  | .list items => return items
  | .text s => return Datum.characters s
  | _ => throw .notPath

/-- Whether a value could name a node at all. -/
def mayBeNode : Datum α → Bool
  | .list _ | .object _ => false
  | _ => true

/-- The number of the arc between two values. -/
def arcNumber (t : TollNetwork α) (u v : Datum α) : Except (Fault α) Nat :=
  if mayBeNode u && mayBeNode v then
    match t.arcNames.findIdx? fun (a, b) => u.same a && v.same b with
    | some e => return e
    | none => throw .unknownArc
  else throw .notNode

/-- The flow of one unit on the arcs with the given numbers. -/
def flowOn (t : TollNetwork α) (numbers : List Nat) : Row α :=
  numbers.foldl (fun y e => y.set e Scalar.one) (List.replicate t.arcCount Scalar.zero)

/-- The flow along a path: on the arcs between its consecutive nodes. -/
def pathToFlow (t : TollNetwork α) (path : Datum α) : Except (Fault α) (Row α) := do
  let nodes ← pathNodes path
  return t.flowOn (← (nodes.zip nodes.tail).mapM fun (u, v) => t.arcNumber u v)

/-- The first `k` items of an array: numbers, or arrays with a dimension less. -/
def firstItems (k : Nat) (given : Tensor α) : Except (Fault α) (Row α ⊕ List (Tensor α)) :=
  match given.shape with
  | [] => throw .missingToll
  | n :: dims =>
    if n < k then throw .missingToll
    else
      let size := given.entries.length / n
      return match dims with
        | [] => .inl (given.entries.take k)
        | dims => .inr ((List.range k).map fun i =>
          ⟨dims, (given.entries.drop (i * size)).take size⟩)

/-- One toll for each arc that can be charged; what is too much is left out, and without tolls all
are zero. -/
def tollItems (t : TollNetwork α) :
    Option (Datum α) → Except (Fault α) (Row α ⊕ List (Tensor α))
  | none | some .null => return .inl (List.replicate t.tolled.length Scalar.zero)
  | some d => do
    let given ← Program.coordinates d
    if t.tolled.isEmpty then return .inl [] else firstItems t.tolled.length given

/-- What the follower pays on each arc: its weight, and its toll if it is charged. -/
def prices {δ : Type} [Distance δ] (t : TollNetwork α) (tolls : List δ) : Array δ :=
  (t.tolled.zip tolls).foldl (fun a (e, toll) => a.modify e (Distance.add · toll))
    (t.weights.map Distance.ofNat).toArray

/-- The price of an arc. -/
def priceOf {δ : Type} [Distance δ] (t : TollNetwork α) (firsts : Array Nat) (prices : Array δ)
    (a : Nat × Nat) : δ :=
  prices.getD (t.graph.numberFrom firsts a) (Distance.ofNat 0)

/-- A cheapest path from the source to the sink for given tolls. -/
def cheapestPath {δ : Type} [Distance δ] (find : Route.Finder) (t : TollNetwork α)
    (tolls : List δ) : Except GraphFault (List Nat) :=
  let firsts := t.graph.firsts
  let prices := t.prices tolls
  find δ t.graph (t.priceOf firsts prices) t.source t.sink

/-- A node as it is written. -/
def nodeName (t : TollNetwork α) (v : Nat) : Datum α :=
  t.nodeNames.getD v (.int v)

/-- The flow along a path of nodes that was found. -/
def flowAlong (t : TollNetwork α) :
    Except GraphFault (List Nat) → Except (Fault α) (Row α)
  | .ok path => t.pathToFlow (.list (path.map t.nodeName))
  | .error why => throw (.graph why)

/-- The flow along a cheapest path from the source to the sink, which any search may find. Tolls that
are arrays do as long as no two lengths have to be compared. -/
def shortestPathFlowBy (find : Route.Finder) (t : TollNetwork α) (tolls : Option (Datum α)) :
    Except (Fault α) (Row α) := do
  match ← t.tollItems tolls with
  | .inl row => t.flowAlong (t.cheapestPath find row)
  | .inr arrays => t.flowAlong (t.cheapestPath find arrays)

/-- The flow along a cheapest path, with the search that is used. -/
def shortestPathFlow (t : TollNetwork α) (tolls : Option (Datum α)) : Except (Fault α) (Row α) :=
  t.shortestPathFlowBy Route.search tolls

end TollNetwork
end Bilevel
