/-!
# Bilevel.Graph.Reach

Which nodes can be reached.

* `reached` follows steps from a node until nothing new is found. Every node that is found is looked
  at once.
-/

namespace Bilevel
namespace Graph

/-- The nodes that were found but not looked at, and for each node whether it was found. -/
abbrev Search := List Nat × Array Bool

/-- Takes note of a node, if it is one of those searched and was not found before. -/
def visit (s : Search) (v : Nat) : Search :=
  if s.2.getD v true then s else (v :: s.1, s.2.setIfInBounds v true)

/-- Looks at so many nodes, as long as there are some. -/
def spread (next : Nat → List Nat) : Nat → Search → Array Bool
  | fuel + 1, (u :: rest, found) => spread next fuel ((next u).foldl visit (rest, found))
  | _, (_, found) => found

/-- The nodes below `n` that steps lead to from `start`, itself included, in ascending order. -/
def reached (next : Nat → List Nat) (n start : Nat) : List Nat :=
  let found := spread next n (visit ([], Array.replicate n false) start)
  (List.range n).filter fun v => found.getD v false

end Graph
end Bilevel
