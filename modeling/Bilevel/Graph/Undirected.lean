/-!
# Bilevel.Graph.Undirected

Undirected graphs that remember the order in which their edges were added.

* The nodes of a graph are the numbers below `Graph.size`.
* `Graph.neighbours` and `Graph.pairs` give the neighbours of a node and all edges in the order of
  the nodes; an edge appears with the smaller node first.
-/

namespace Bilevel

/-- For every node, other nodes in the order in which they were linked to it. -/
abbrev Links := Array (List Nat)

namespace Links

/-- A list with `x` at its end, unless it holds it already. -/
def insertLast {β : Type} [BEq β] (xs : List β) (x : β) : List β :=
  if xs.contains x then xs else xs ++ [x]

theorem mem_insertLast {β : Type} [BEq β] [LawfulBEq β] (xs : List β) (x y : β) :
    y ∈ insertLast xs x ↔ y ∈ xs ∨ y = x := by
  simp only [insertLast]
  split
  · rename_i h
    have hx : x ∈ xs := List.contains_iff_mem.1 h
    constructor
    · exact Or.inl
    · rintro (hy | rfl)
      · exact hy
      · exact hx
  · simp

/-- The nodes linked to a node. -/
def linked (l : Links) (u : Nat) : List Nat :=
  l.getD u []

/-- Links `v` to `u`, unless it is already. -/
def add (l : Links) (u v : Nat) : Links :=
  l.modify u (insertLast · v)

/-- Takes `v` out of the nodes linked to `u`. -/
def remove (l : Links) (u v : Nat) : Links :=
  l.modify u (·.filter (· != v))

/-- All links in the order of the nodes. -/
def all (l : Links) : List (Nat × Nat) :=
  (List.range l.size).flatMap fun u => (l.linked u).map (u, ·)

@[simp] theorem size_add (l : Links) (u v : Nat) : (l.add u v).size = l.size := by
  simp [add]

@[simp] theorem size_remove (l : Links) (u v : Nat) : (l.remove u v).size = l.size := by
  simp [remove]

end Links

/-- An undirected graph, by the neighbours of its nodes. -/
structure Graph where
  links : Links
  deriving Repr, DecidableEq

namespace Graph

/-- As many nodes, and no edge. -/
def discrete (n : Nat) : Graph :=
  ⟨Array.replicate n []⟩

/-- The number of nodes. -/
def size (g : Graph) : Nat :=
  g.links.size

/-- The neighbours of a node. -/
def neighbours (g : Graph) (u : Nat) : List Nat :=
  g.links.linked u

/-- Adds the node with the next number. -/
def addNode (g : Graph) : Graph :=
  ⟨g.links.push []⟩

/-- Whether there is an edge between two nodes. -/
def joins (g : Graph) (u v : Nat) : Bool :=
  (g.neighbours u).contains v

/-- Adds an edge between two nodes. An edge that is there already stays as it is. -/
def addEdge (g : Graph) (e : Nat × Nat) : Graph :=
  ⟨(g.links.add e.1 e.2).add e.2 e.1⟩

@[simp] theorem size_discrete (n : Nat) : (discrete n).size = n := by
  simp [discrete, size]

@[simp] theorem size_addEdge (g : Graph) (e : Nat × Nat) : (g.addEdge e).size = g.size := by
  simp [addEdge, size]

/-- As many nodes with the given edges. -/
def ofEdges (n : Nat) (edges : List (Nat × Nat)) : Graph :=
  edges.foldl addEdge (discrete n)

@[simp] theorem size_ofEdges (n : Nat) (edges : List (Nat × Nat)) :
    (ofEdges n edges).size = n := by
  suffices h : ∀ g : Graph, (edges.foldl addEdge g).size = g.size by
    rw [ofEdges, h, size_discrete]
  induction edges with
  | nil => exact fun _ => rfl
  | cons e edges ih =>
    intro g
    rw [List.foldl_cons, ih, size_addEdge]

/-- All edges, each once, in the order of the nodes. -/
def pairs (g : Graph) : List (Nat × Nat) :=
  g.links.all.filter fun (u, v) => u ≤ v

end Graph
end Bilevel
