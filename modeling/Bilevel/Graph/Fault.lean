import Bilevel.Capacity

/-!
# Bilevel.Graph.Fault

What cannot be done with a graph.
-/

namespace Bilevel

/-- Why there is no such graph, no such network or no such path. -/
inductive GraphFault where
  /-- A number of nodes or neighbours for which there is no ring. -/
  | noRing
  /-- Numbers of nodes and neighbours that are no numbers, or cannot be compared. -/
  | noSize
  /-- More nodes than can be listed. -/
  | capacity (why : CapacityFault)
  /-- A ring that does not hang together. -/
  | disconnected
  /-- A graph without any node. -/
  | empty
  /-- A value that cannot be a node. -/
  | notNode
  /-- Nothing where a node is needed, or a node with attributes that has another form. -/
  | malformedNode
  /-- A value that is no sequence where an edge, or a sequence of edges, is needed. -/
  | notEdge
  /-- An edge that has not two ends. -/
  | malformedEdge
  /-- A graph without the source. -/
  | noSource
  /-- A source from which no other node can be reached. -/
  | noSink
  /-- Nodes that cannot be put in order. -/
  | unordered
  /-- A sink that stands for no integer. -/
  | noNumber
  /-- A sink that stands for an infinity. -/
  | endless
  /-- A settled distance that turned out not to be the shortest. -/
  | contradictoryPaths
  /-- Distances that cannot be compared. -/
  | incomparable
  /-- No path leads to the sink. -/
  | noPath
  deriving Repr, DecidableEq

end Bilevel
