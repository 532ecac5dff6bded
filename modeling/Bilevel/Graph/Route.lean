import Bilevel.Graph.Directed
import Bilevel.Graph.Distance
import Bilevel.Graph.Fault
import Bilevel.Heap

/-!
# Bilevel.Graph.Route

A shortest path between two nodes.

* Two searches run against each other, one from the source along the arcs and one from the target
  against them. Each settles the first node of its fringe, a heap of nodes by distance; of equally
  near ones the one that came first is before the other.
* The two take turns. Once a node is settled by both, the path through the best meeting node is the
  answer.
* A settled node that could be reached on a shorter way shows that a cost is negative.
* The search ends without a path as soon as two distances cannot be compared.
* A `Finder` is any such search. `Route.search` is the one above.
-/

namespace Bilevel
namespace Route

variable {δ : Type} [Distance δ]

/-- A node on the fringe, with its distance and the time when it came there. -/
structure Reached (δ : Type) where
  distance : δ
  time : Nat
  node : Nat

/-- The answer of a comparison that has to have one. -/
def decided : Option Bool → Except GraphFault Bool
  | some b => .ok b
  | none => .error .incomparable

/-- Whether `a` is nearer than `b`. -/
def nearer (a b : δ) : Except GraphFault Bool :=
  decided (Distance.less? a b)

/-- Whether `a` is nearer than `b`, or as near and came first. -/
def Reached.before (a b : Reached δ) : Except GraphFault Bool := do
  if ← decided (Distance.equal? a.distance b.distance) then return a.time < b.time
  else nearer a.distance b.distance

/-- Whether `a` is nearer than what is there, if there is anything. -/
def improves (a : δ) : Option δ → Except GraphFault Bool
  | some b => nearer a b
  | none => return true

/-- One of the two searches. -/
structure Front (δ : Type) where
  /-- The settled nodes and their distances. -/
  settled : List (Nat × δ)
  /-- The least distance found so far, for every node that was found; the newest comes first. -/
  found : List (Nat × δ)
  /-- The node from which a node was found last; the newest comes first. -/
  via : List (Nat × Nat)
  /-- The nodes to be looked at. -/
  fringe : Heap (Reached δ)

/-- A search that has only found its start. -/
def Front.start (node time : Nat) : Front δ :=
  ⟨[], [(node, Distance.ofNat 0)], [], #[⟨Distance.ofNat 0, time, node⟩]⟩

/-- The best meeting of the two searches so far: the total distance and the node. -/
abbrev Meeting (δ : Type) := Option (δ × Nat)

/-- A search, the time, and the best meeting. -/
structure Progress (δ : Type) where
  front : Front δ
  time : Nat
  meeting : Meeting δ

/-- Looks at one neighbour `w` of the node `v`, at the distance `d`. The other search is given by
what it has found. -/
def lookAt (others : List (Nat × δ)) (v : Nat) (s : Progress δ) (w : Nat) (d : δ) :
    Except GraphFault (Progress δ) :=
  match s.front.settled.lookup w with
  | some best => do
    if ← nearer d best then .error .contradictoryPaths else return s
  | none => do
    if ← improves d (s.front.found.lookup w) then
      let front := { s.front with
        found := (w, d) :: s.front.found
        via := (w, v) :: s.front.via
        fringe := ← s.front.fringe.push Reached.before ⟨d, s.time, w⟩ }
      match others.lookup w with
      | none => return ⟨front, s.time + 1, s.meeting⟩
      | some other =>
        let total := Distance.add d other
        if ← improves total (s.meeting.map (·.1)) then
          return ⟨front, s.time + 1, some (total, w)⟩
        else return ⟨front, s.time + 1, s.meeting⟩
    else return s

/-- Looks at the neighbours of a node at the distance `d` one after the other. -/
def lookAround (others : List (Nat × δ)) (v : Nat) (d : δ) :
    List (Nat × δ) → Progress δ → Except GraphFault (Progress δ)
  | [], s => .ok s
  | (w, c) :: rest, s => do
    let s ← lookAt others v s w (Distance.add d c)
    lookAround others v d rest s

/-- The way from a node back to the start of a search, both included. -/
def wayBack (via : List (Nat × Nat)) : Nat → Nat → List Nat
  | 0, v => [v]
  | fuel + 1, v =>
    match via.lookup v with
    | none => [v]
    | some u => v :: wayBack via fuel u

/-- The path through a node that both searches have found. -/
def join (forward backward : Front δ) (v : Nat) : List Nat :=
  (wayBack forward.via forward.via.length v).reverse ++
    (wayBack backward.via backward.via.length v).tail

/-- The arcs that leave or enter a node, by direction, with the node at their other end and their
cost. -/
def steps (g : Digraph) (cost : Nat × Nat → δ) (along : Bool) (v : Nat) : List (Nat × δ) :=
  if along then (g.successors v).map fun w => (w, cost (v, w))
  else (g.predecessors v).map fun w => (w, cost (w, v))

/-- The search proper. In each round the search `mine` takes its turn against `other`; `along` says
whether `mine` follows the arcs. -/
def run (g : Digraph) (cost : Nat × Nat → δ) :
    Nat → Bool → Front δ → Front δ → Nat → Meeting δ → Except GraphFault (List Nat)
  | 0, _, _, _, _, _ => .error .noPath
  | fuel + 1, along, mine, other, time, meeting =>
    if other.fringe.isEmpty then .error .noPath
    else do
      match ← mine.fringe.pop Reached.before with
      | none => .error .noPath
      | some (next, fringe) =>
        let v := next.node
        if (mine.settled.lookup v).isSome then
          run g cost fuel (!along) other { mine with fringe } time meeting
        else
          let mine := { mine with fringe, settled := (v, next.distance) :: mine.settled }
          if (other.settled.lookup v).isSome then
            match meeting with
            | none => .error .noPath
            | some (_, m) => return if along then join mine other m else join other mine m
          else
            let s ← lookAround other.found v next.distance (steps g cost along v)
              ⟨mine, time, meeting⟩
            run g cost fuel (!along) other s.front s.time s.meeting

/-- A shortest path from `s` to `t`. -/
def shortest (g : Digraph) (cost : Nat × Nat → δ) (s t : Nat) : Except GraphFault (List Nat) :=
  if s = t then .ok [s]
  else run g cost (2 * g.ordered.length + 3) true (Front.start s 0) (Front.start t 1) 2 none

/-- Any search for a shortest path between two nodes of a graph, whatever its arcs cost. -/
abbrev Finder := (δ : Type) → [Distance δ] → Digraph → (Nat × Nat → δ) → Nat → Nat →
  Except GraphFault (List Nat)

/-- The search that is used. -/
def search : Finder := fun _ _ g cost s t => shortest g cost s t

end Route
end Bilevel
