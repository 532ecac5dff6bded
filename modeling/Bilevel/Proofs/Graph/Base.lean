import Bilevel.Proofs.Graph.Network

/-!
# Bilevel.Proofs.Graph.Base

The undirected graphs below networks.

* `simple_ofEdges`: edges between different nodes make a simple graph.
* `base_given`: edges that are pairs of integers in range are taken as they are.
* `ranged_of_base`: whatever the edges are, they lead to nodes.
* `base_ring`: a ring of a number of nodes is a simple graph, whose nodes are written as integers.
-/

namespace Bilevel
namespace Graph

variable {g : Graph} {u v n : Nat} {e : Nat × Nat}

theorem mem_neighbours_addEdge (h1 : e.1 < g.size) (h2 : e.2 < g.size) :
    v ∈ (g.addEdge e).neighbours u ↔
      v ∈ g.neighbours u ∨ (u = e.1 ∧ v = e.2) ∨ (u = e.2 ∧ v = e.1) := by
  have hsize : e.2 < (g.links.add e.1 e.2).size := by
    rw [Links.size_add]
    exact h2
  have hsecond : v ∈ (g.addEdge e).neighbours u ↔
      v ∈ (g.links.add e.1 e.2).linked u ∨ (u = e.2 ∧ v = e.1) := Links.mem_linked_add hsize
  rw [hsecond, Links.mem_linked_add h1, or_assoc]
  rfl

theorem neighbours_discrete (n u : Nat) : (discrete n).neighbours u = [] :=
  Links.linked_replicate n u

theorem simple_discrete (n : Nat) : (discrete n).Simple where
  symm u v hv := by
    rw [neighbours_discrete] at hv
    cases hv
  irrefl u hu := by
    rw [neighbours_discrete] at hu
    cases hu
  nodup u := by
    rw [neighbours_discrete]
    exact List.nodup_nil

theorem Simple.addEdge (hg : g.Simple) (h1 : e.1 < g.size) (h2 : e.2 < g.size) (hne : e.1 ≠ e.2) :
    (g.addEdge e).Simple where
  symm u v hv := by
    rw [mem_neighbours_addEdge h1 h2] at hv ⊢
    rcases hv with hv | ⟨rfl, rfl⟩ | ⟨rfl, rfl⟩
    · exact .inl (hg.symm u v hv)
    · exact .inr (.inr ⟨rfl, rfl⟩)
    · exact .inr (.inl ⟨rfl, rfl⟩)
  irrefl u hu := by
    rw [mem_neighbours_addEdge h1 h2] at hu
    rcases hu with hu | ⟨rfl, h⟩ | ⟨rfl, h⟩
    · exact hg.irrefl u hu
    · exact hne h
    · exact hne h.symm
  nodup u := Links.nodup_linked_add (Links.nodup_linked_add hg.nodup e.1 e.2) e.2 e.1 u

theorem simple_ofEdges {edges : List (Nat × Nat)}
    (h : ∀ e ∈ edges, e.1 < n ∧ e.2 < n ∧ e.1 ≠ e.2) : (ofEdges n edges).Simple := by
  suffices hfold : ∀ g : Graph, g.Simple → g.size = n → (edges.foldl Graph.addEdge g).Simple from
    hfold (discrete n) (simple_discrete n) (size_discrete n)
  induction edges with
  | nil => exact fun g hg _ => hg
  | cons e edges ih =>
    intro g hg hsize
    obtain ⟨h1, h2, hne⟩ := h e List.mem_cons_self
    rw [List.foldl_cons]
    refine ih (fun e he => h e (List.mem_cons_of_mem _ he)) _ ?_ ?_
    · exact hg.addEdge (hsize ▸ h1) (hsize ▸ h2) hne
    · rw [size_addEdge]
      exact hsize

theorem ranged_discrete (n : Nat) : (discrete n).Ranged := (simple_discrete n).ranged

theorem size_addNode (g : Graph) : g.addNode.size = g.size + 1 :=
  Array.size_push _

theorem Ranged.addNode (hg : g.Ranged) : g.addNode.Ranged := by
  intro u v hv
  have hold : v ∈ g.neighbours u := by
    have hv : v ∈ Links.linked (g.links.push []) u := hv
    rw [Links.linked_eq, Array.getElem?_push] at hv
    split at hv
    · cases hv
    · rw [neighbours, Links.linked_eq]
      exact hv
  rw [size_addNode]
  exact Nat.lt_succ_of_lt (hg u v hold)

theorem Ranged.addEdge (hg : g.Ranged) (h1 : e.1 < g.size) (h2 : e.2 < g.size) :
    (g.addEdge e).Ranged := by
  intro u v hv
  rw [size_addEdge]
  rcases (mem_neighbours_addEdge h1 h2).1 hv with hv | ⟨-, rfl⟩ | ⟨-, rfl⟩
  · exact hg u v hv
  · exact h2
  · exact h1

end Graph

/-! ## Edges that are given -/

namespace NamedGraph

variable {α : Type} [Scalar α] {G : Graph} {u v : Nat}

theorem nodeOf_ofGraph (hu : u < G.size) :
    (ofGraph G : NamedGraph α).nodeOf (.int u) = .ok (u, ofGraph G) := by
  have hfind : (ofGraph G : NamedGraph α).names.find? (.int u) = some u :=
    Names.find?_int _ hu
  simp only [nodeOf, hfind]

omit [Scalar α] in
theorem note_ofGraph (hv : v < G.size) :
    (ofGraph G : NamedGraph α).names.note u v (.int v) = (ofGraph G : NamedGraph α).names := by
  rw [Names.note, Network.name_ofGraph hv]
  rfl

theorem join_ofGraph (hu : u < G.size) (hv : v < G.size) :
    (ofGraph G : NamedGraph α).join (.int u) (.int v) = .ok (ofGraph (G.addEdge (u, v))) := by
  have hnames : (ofGraph G : NamedGraph α).names.noteEdge u v (.int u) (.int v) =
      (ofGraph G : NamedGraph α).names := by
    rw [Names.noteEdge, note_ofGraph hv, note_ofGraph hu]
    split
    · rfl
    · rfl
  rw [join, nodeOf_ofGraph hu]
  simp only [bind, Except.bind, nodeOf_ofGraph hv, hnames, ite_self]
  rw [ofGraph, ofGraph, Graph.size_addEdge]
  rfl

theorem ofEdges_ofGraph {n : Nat} {edges : List (Nat × Nat)} (h : ∀ e ∈ edges, e.1 < n ∧ e.2 < n) :
    (ofEdges n (.list (edges.map fun e => .list [.int e.1, .int e.2])) :
      Except GraphFault (NamedGraph α)) = .ok (ofGraph (Graph.ofEdges n edges)) := by
  suffices hfold : ∀ g : Graph, g.size = n →
      (edges.map fun e => (.list [.int e.1, .int e.2] : Datum α)).foldlM addEdge (ofGraph g) =
        .ok (ofGraph (edges.foldl Graph.addEdge g)) from
    hfold (Graph.discrete n) (Graph.size_discrete n)
  induction edges with
  | nil => exact fun g _ => rfl
  | cons e edges ih =>
    intro g hsize
    obtain ⟨h1, h2⟩ := h e List.mem_cons_self
    have hadd : (ofGraph g : NamedGraph α).addEdge (.list [.int e.1, .int e.2]) =
        .ok (ofGraph (g.addEdge e)) := join_ofGraph (hsize ▸ h1) (hsize ▸ h2)
    rw [List.map_cons, List.foldlM_cons, hadd]
    exact ih (fun e he => h e (List.mem_cons_of_mem _ he)) _ ((Graph.size_addEdge g e).trans hsize)

section Ranged

variable {g g' : NamedGraph α} {d a b : Datum α}

/-- Every node has a name, and edges lead to nodes. -/
structure Ranged (g : NamedGraph α) : Prop where
  graph : g.graph.Ranged
  size_eq : g.graph.size = g.names.plain + g.names.others.length

theorem Ranged.lt_of_find? (hg : g.Ranged) (h : g.names.find? d = some v) : v < g.graph.size := by
  rw [hg.size_eq]
  rw [Names.find?] at h
  split at h
  · rename_i n hn
    cases h
    have hlt := (Option.filter_eq_some_iff.1 hn).2
    simp only [Bool.and_eq_true, decide_eq_true_eq] at hlt
    omega
  · obtain ⟨i, hi, rfl⟩ := Option.map_eq_some_iff.1 h
    obtain ⟨hlt, -⟩ := List.findIdx?_eq_some_iff_getElem.1 hi
    omega

theorem Ranged.nodeOf (hg : g.Ranged) (h : g.nodeOf d = .ok (v, g')) :
    g'.Ranged ∧ v < g'.graph.size ∧ g.graph.size ≤ g'.graph.size := by
  unfold NamedGraph.nodeOf at h
  split at h
  · cases h
  · cases h
  · cases h
  · split at h
    · rename_i hfind
      cases h
      exact ⟨hg, hg.lt_of_find? hfind, le_rfl⟩
    · cases h
      have hsize : g.graph.addNode.size = g.graph.size + 1 := Graph.size_addNode _
      refine ⟨⟨hg.graph.addNode, ?_⟩, ?_, ?_⟩
      · show g.graph.addNode.size = g.names.plain + (g.names.others ++ [_]).length
        rw [hsize, hg.size_eq, List.length_append, List.length_singleton, Nat.add_assoc]
      · show g.graph.size < g.graph.addNode.size
        omega
      · show g.graph.size ≤ g.graph.addNode.size
        omega

omit [Scalar α] in
theorem note_others (names : Names α) (u v : Nat) (d : Datum α) :
    (names.note u v d).plain = names.plain ∧ (names.note u v d).others = names.others := by
  rw [Names.note]
  split
  · exact ⟨rfl, rfl⟩
  · exact ⟨rfl, rfl⟩

omit [Scalar α] in
theorem noteEdge_others (names : Names α) (u v : Nat) (a b : Datum α) :
    (names.noteEdge u v a b).plain = names.plain ∧
      (names.noteEdge u v a b).others = names.others := by
  rw [Names.noteEdge]
  obtain ⟨hplain, hothers⟩ := note_others names u v b
  split
  · exact ⟨hplain, hothers⟩
  · obtain ⟨hplain', hothers'⟩ := note_others (names.note u v b) v u a
    exact ⟨hplain'.trans hplain, hothers'.trans hothers⟩

theorem Ranged.join (hg : g.Ranged) (h : g.join a b = .ok g') : g'.Ranged := by
  obtain ⟨⟨u, g₁⟩, hu, h⟩ := exists_of_bind h
  obtain ⟨⟨v, g₂⟩, hv, h⟩ := exists_of_bind h
  cases h
  obtain ⟨hg₁, hu₁, -⟩ := hg.nodeOf hu
  obtain ⟨hg₂, hv₂, hle⟩ := hg₁.nodeOf hv
  refine ⟨hg₂.graph.addEdge (hu₁.trans_le hle) hv₂, ?_⟩
  obtain ⟨hplain, hothers⟩ := noteEdge_others g₂.names u v a b
  rw [Graph.size_addEdge, hg₂.size_eq]
  split
  · rfl
  · rw [hplain, hothers]

theorem ranged_ofEdges {n : Int} {edges : Datum α} (h : ofEdges n edges = .ok g) : g.Ranged := by
  rw [ofEdges] at h
  split at h
  · rename_i items hitems
    suffices hfold : ∀ g₀ : NamedGraph α, g₀.Ranged → items.foldlM addEdge g₀ = .ok g → g.Ranged by
      refine hfold _ ⟨Graph.ranged_discrete _, ?_⟩ h
      rfl
    clear h hitems
    induction items with
    | nil =>
      intro g₀ hg₀ h
      cases h
      exact hg₀
    | cons d items ih =>
      intro g₀ hg₀ h
      rw [List.foldlM_cons] at h
      obtain ⟨g₁, hadd, h⟩ := exists_of_bind h
      obtain ⟨⟨a, b⟩, -, hjoin⟩ := exists_of_bind hadd
      exact ih g₁ (hg₀.join hjoin) h
  · cases h

end Ranged

end NamedGraph

namespace Network

variable {α : Type} [Scalar α]

variable {n : Nat} {edges : List (Nat × Nat)} {count : Datum α}

/-- Edges between integers in range are taken as they are, loops included. -/
theorem base_ofEdges (h : ∀ e ∈ edges, e.1 < n ∧ e.2 < n) (k : Datum α)
    (hcount : count.whole? = some (n : Int)) :
    base (.given (.list (edges.map fun e => .list [.int e.1, .int e.2]))) count k =
      .ok (.ofGraph (Graph.ofEdges n edges)) := by
  rw [base, hcount]
  exact NamedGraph.ofEdges_ofGraph h

/-- Edges between different integers in range give a simple graph. -/
theorem base_given (h : ∀ e ∈ edges, e.1 < n ∧ e.2 < n ∧ e.1 ≠ e.2) (k : Datum α)
    (hcount : count.whole? = some (n : Int)) :
    base (.given (.list (edges.map fun e => .list [.int e.1, .int e.2]))) count k =
      .ok (.ofGraph (Graph.ofEdges n edges)) ∧ (Graph.ofEdges n edges).Simple :=
  ⟨base_ofEdges (fun e he => ⟨(h e he).1, (h e he).2.1⟩) k hcount, Graph.simple_ofEdges h⟩

end Network

/-! ## Rings -/

namespace Graph

theorem mem_couples {β : Type} {l : List β} (hl : l.Nodup) {a b : β} (h : (a, b) ∈ couples l) :
    a ∈ l ∧ b ∈ l ∧ a ≠ b := by
  induction l with
  | nil => cases h
  | cons u rest ih =>
    obtain ⟨hu, hrest⟩ := List.nodup_cons.1 hl
    rw [couples] at h
    rcases List.mem_append.1 h with h | h
    · obtain ⟨w, hw, he⟩ := List.mem_map.1 h
      cases he
      exact ⟨List.mem_cons_self, List.mem_cons_of_mem _ hw, fun hab => hu (hab ▸ hw)⟩
    · obtain ⟨ha, hb, hne⟩ := ih hrest h
      exact ⟨List.mem_cons_of_mem _ ha, List.mem_cons_of_mem _ hb, hne⟩

theorem simple_complete (n : Nat) : (complete n).Simple := by
  refine simple_ofEdges fun e he => ?_
  obtain ⟨h1, h2, hne⟩ := mem_couples List.nodup_range he
  exact ⟨List.mem_range.1 h1, List.mem_range.1 h2, hne⟩

theorem simple_wreath {n half : Nat} (h : half < n) : (wreath n half).Simple := by
  refine simple_ofEdges fun e he => ?_
  obtain ⟨j, hj, he⟩ := List.mem_flatMap.1 he
  obtain ⟨u, hu, rfl⟩ := List.mem_map.1 he
  have hjn : 1 ≤ j ∧ j < 1 + half := List.mem_range'_1.1 hj
  have hun : u < n := List.mem_range.1 hu
  refine ⟨hun, Nat.mod_lt _ (by omega), fun hloop => ?_⟩
  by_cases hwrap : u + j < n
  · rw [Nat.mod_eq_of_lt hwrap] at hloop
    omega
  · rw [Nat.mod_eq_sub_mod (by omega), Nat.mod_eq_of_lt (by omega)] at hloop
    omega

variable {α : Type} [Scalar α]

theorem exceeds?_of_whole {d e : Datum α} {m n : Int} (hd : d.whole? = some m)
    (he : e.whole? = some n) : d.exceeds? e = some (decide (n < m)) := by
  cases d with
  | bool b =>
    cases hd
    cases e with
    | bool c =>
      cases he
      rfl
    | int k =>
      cases he
      rfl
    | _ => cases he
  | int j =>
    cases hd
    cases e with
    | bool c =>
      cases he
      rfl
    | int k =>
      cases he
      rfl
    | _ => cases he
  | _ => cases hd

omit [Scalar α] in
theorem items?_of_whole {d : Datum α} {n : Int} (h : d.whole? = some n) : d.items? = none := by
  cases d with
  | bool b => rfl
  | int k => rfl
  | _ => cases h

theorem eq_toNat_of_nodeCount {n : Int} {m : Nat} (h : nodeCount n = .ok m) : m = n.toNat := by
  rw [nodeCount] at h
  cases hcheck : Capacity.check Memory.standard.items n with
  | error why =>
    rw [hcheck] at h
    cases h
  | ok _ =>
    simp only [hcheck] at h
    split at h
    · cases h
    · cases h
      rfl

omit [Scalar α] in
theorem eq_of_connected {g g' : NamedGraph α} (h : connected g' = .ok g) :
    g = g' ∧ 0 < g'.graph.size := by
  rw [connected] at h
  split at h
  · cases h
  · rename_i hsize
    split at h
    · cases h
      exact ⟨rfl, Nat.pos_of_ne_zero hsize⟩
    · cases h

section Ring

variable {n k : Datum α} {m : Int} {g : NamedGraph α}

theorem eq_of_completeOn (hn : n.whole? = some m) (h : completeOn n = .ok g) :
    g = .ofGraph (complete m.toNat) := by
  rw [completeOn, items?_of_whole hn, hn] at h
  obtain ⟨count, hcount, h⟩ := exists_of_bind h
  cases h
  rw [eq_toNat_of_nodeCount hcount]

theorem eq_of_ringOn (hn : n.whole? = some m) (h : ringOn n k = .ok g) :
    ∃ j, k.whole? = some j ∧ g = .ofGraph (wreath m.toNat (j / 2).toNat) := by
  rw [ringOn, items?_of_whole hn, hn] at h
  obtain ⟨count, hcount, h⟩ := exists_of_bind h
  cases hk : k.whole? with
  | none =>
    simp only [hk] at h
    cases h
  | some j =>
    simp only [hk] at h
    cases h
    rw [eq_toNat_of_nodeCount hcount]
    exact ⟨j, rfl, rfl⟩

/-- A ring of a number of nodes: a complete graph or a wreath. -/
theorem ring_cases (hn : n.whole? = some m) (h : ring n k = .ok g) :
    g = .ofGraph (complete m.toNat) ∨ ∃ half < m.toNat, g = .ofGraph (wreath m.toNat half) := by
  rw [ring] at h
  cases hex : k.exceeds? n with
  | none =>
    rw [hex] at h
    cases h
  | some greater =>
    cases greater with
    | true =>
      rw [hex] at h
      cases h
    | false =>
      simp only [hex] at h
      split at h
      · obtain ⟨g', hbase, h⟩ := exists_of_bind h
        obtain ⟨rfl, -⟩ := eq_of_connected h
        exact .inl (eq_of_completeOn hn hbase)
      · obtain ⟨g', hbase, h⟩ := exists_of_bind h
        obtain ⟨rfl, hpos⟩ := eq_of_connected h
        obtain ⟨j, hj, rfl⟩ := eq_of_ringOn hn hbase
        have hsize : 0 < m.toNat := by
          rw [← size_ofEdges m.toNat]
          exact hpos
        have hle := (exceeds?_of_whole hj hn).symm.trans hex
        rw [Option.some.injEq, decide_eq_false_iff_not] at hle
        exact .inr ⟨(j / 2).toNat, by omega, rfl⟩

/-- A ring of a number of nodes is a simple graph. -/
theorem base_ring (hn : n.whole? = some m) (h : Network.base .ring n k = .ok g) :
    ∃ G : Graph, g = .ofGraph G ∧ G.Simple := by
  rcases ring_cases hn h with rfl | ⟨half, hhalf, rfl⟩
  · exact ⟨_, rfl, simple_complete m.toNat⟩
  · exact ⟨_, rfl, simple_wreath hhalf⟩

/-- All edges that a network is based on lead to its nodes. -/
theorem ranged_of_base {origin : Network.Origin α} (hn : n.whole? = some m)
    (h : Network.base origin n k = .ok g) : g.graph.Ranged := by
  cases origin with
  | ring =>
    obtain ⟨G, rfl, hG⟩ := base_ring hn h
    exact hG.ranged
  | given edges =>
    rw [Network.base, hn] at h
    exact (NamedGraph.ranged_ofEdges h).graph

end Ring

end Graph
end Bilevel
