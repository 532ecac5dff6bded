import Bilevel.Proofs.Graph.Arcs
import Bilevel.Proofs.Runs

/-!
# Bilevel.Proofs.Graph.Network

What holds of every network that is drawn for a simple graph whose nodes are written as integers.

* `Graph.Simple` says that edges join two different nodes, in both directions; `Graph.Ranged` only that
  they lead to nodes.
* `NamedNetwork.Sound` collects what the rest needs to know of a network: its arcs are entered
  properly, the sink can be reached, and nodes and arcs are written as they are numbered.
* `sound_of_namedOfDraws`: it holds whatever is drawn.
-/

namespace Bilevel

namespace Graph

/-- Edges join different nodes, in both directions, and no edge is there twice. -/
structure Simple (g : Graph) : Prop where
  symm : ∀ u, ∀ v ∈ g.neighbours u, u ∈ g.neighbours v
  irrefl : ∀ u, u ∉ g.neighbours u
  nodup : ∀ u, (g.neighbours u).Nodup

theorem mem_pairs {g : Graph} {u v : Nat} : (u, v) ∈ g.pairs ↔ v ∈ g.neighbours u ∧ u ≤ v := by
  rw [pairs, List.mem_filter, Links.mem_all, decide_eq_true_eq]
  rfl

/-- Edges lead to nodes of the graph. Loops may be among them. -/
def Ranged (g : Graph) : Prop :=
  ∀ u, ∀ v ∈ g.neighbours u, v < g.size

theorem Simple.ranged {g : Graph} (hg : g.Simple) : g.Ranged :=
  fun u v hv => Links.lt_size_of_mem_linked (hg.symm u v hv)

theorem Ranged.lt_of_mem_pairs {g : Graph} (hg : g.Ranged) :
    ∀ e ∈ g.pairs, e.1 < g.size ∧ e.2 < g.size := by
  intro e he
  have hv := (mem_pairs.1 (show (e.1, e.2) ∈ g.pairs from he)).1
  exact ⟨Links.lt_size_of_mem_linked hv, hg e.1 e.2 hv⟩

theorem Simple.ends_of_mem_pairs {g : Graph} (hg : g.Simple) {e : Nat × Nat} (he : e ∈ g.pairs) :
    e.1 < g.size ∧ e.2 < g.size ∧ e.1 ≠ e.2 := by
  obtain ⟨u, v⟩ := e
  obtain ⟨huv, -⟩ := mem_pairs.1 he
  refine ⟨Links.lt_size_of_mem_linked huv, Links.lt_size_of_mem_linked (hg.symm u v huv), ?_⟩
  intro h
  have huv' : u = v := h
  subst huv'
  exact hg.irrefl u huv

end Graph

/-- What holds of the networks that are drawn. -/
structure NamedNetwork.Sound {α : Type} (t : NamedNetwork α) : Prop where
  proper : t.graph.Proper
  loopless : ∀ u, u ∉ t.graph.successors u
  source_eq : t.source = 0
  size_pos : 0 < t.graph.size
  sink_ne : t.sink ≠ t.source
  reachable : Relation.ReflTransGen (fun u v => v ∈ t.graph.successors u) t.source t.sink
  arcCount_eq : t.arcCount = t.graph.ordered.length
  finish_eq : t.finish = t.sink
  arcNames_eq : t.arcNames = t.graph.ordered.map fun a => (.int a.1, .int a.2)
  nodeNames_eq : t.nodeNames = (List.range t.graph.size).map fun (v : Nat) => .int v

/-- Every arc is entered once and has a number, and is written as its two nodes are numbered. This
needs no more of the graph below than that its edges join nodes. -/
structure NamedNetwork.Numbered {α : Type} (t : NamedNetwork α) : Prop where
  proper : t.graph.Proper
  arcCount_eq : t.arcCount = t.graph.ordered.length
  arcNames_eq : t.arcNames = t.graph.ordered.map fun a => (.int a.1, .int a.2)

theorem NamedNetwork.Sound.numbered {α : Type} {t : NamedNetwork α} (ht : t.Sound) : t.Numbered :=
  ⟨ht.proper, ht.arcCount_eq, ht.arcNames_eq⟩

theorem NamedNetwork.Sound.source_lt {α : Type} {t : NamedNetwork α} (ht : t.Sound) :
    t.source < t.graph.size := by
  rw [ht.source_eq]
  exact ht.size_pos

theorem NamedNetwork.Sound.sink_lt {α : Type} {t : NamedNetwork α} (ht : t.Sound) :
    t.sink < t.graph.size := by
  rcases Relation.ReflTransGen.cases_tail ht.reachable with h | ⟨u, -, hu⟩
  · exact absurd h ht.sink_ne
  · exact ht.proper.lt_size_of_mem hu

namespace Names

variable {α : Type} [Scalar α]

theorem mem_of_sorted {names : Names α} {vs ws : List Nat} (h : names.sorted vs = .ok ws) (v : Nat) :
    v ∈ ws ↔ v ∈ vs := by
  unfold sorted at h
  simp only at h
  split at h
  · cases h
    exact List.mem_mergeSort
  · cases h

theorem number_of_lt {names : Names α} {v : Nat} (h : v < names.plain) :
    names.number v = .ok (v : Int) := by
  rw [number, name_of_lt names h]
  rfl

end Names

namespace Network

variable {α : Type} [Scalar α] {G : Graph}

omit [Scalar α] in
theorem name_ofGraph {v : Nat} (hv : v < G.size) :
    (NamedGraph.ofGraph G : NamedGraph α).names.name v = .int v :=
  Names.name_of_lt _ hv

omit [Scalar α] in
theorem beside_ofGraph (u : Nat) {v : Nat} (hv : v < G.size) :
    (NamedGraph.ofGraph G : NamedGraph α).names.beside u v = .int v := by
  have hvariants : ((NamedGraph.ofGraph G : NamedGraph α).names.variants.getD u []) = [] := by
    show (Array.replicate G.size []).getD u [] = []
    rw [Array.getD_eq_getD_getElem?, Array.getElem?_replicate]
    split
    · rfl
    · rfl
  rw [Names.beside, hvariants, name_ofGraph hv]
  rfl

omit [Scalar α] in
theorem headName_ofGraph (turned : Nat → Bool) {a : Nat × Nat} (ha : a.2 < G.size) :
    headName (NamedGraph.ofGraph G : NamedGraph α).names turned a = .int a.2 := by
  unfold headName
  split
  · exact beside_ofGraph a.1 ha
  · exact name_ofGraph ha

theorem find?_start : (NamedGraph.ofGraph G : NamedGraph α).names.find? (.int start) =
    if 0 < G.size then some 0 else none := by
  split
  · rename_i h
    exact Names.find?_int _ h
  · rename_i h
    have hsize : G.size = 0 := Nat.eq_zero_of_not_pos h
    simp [Names.find?, hsize, start, Datum.integral?, Datum.whole?, NamedGraph.ofGraph, Option.filter]

/-- The graph of a network: the drawn orientation with an open source, and a sink that can be
reached. -/
theorem ofDraws_cases {keep : List Bool} {pick : Nat} {network : Network}
    (h : ofDraws (NamedGraph.ofGraph G : NamedGraph α).names G keep pick = .ok network) :
    0 < G.size ∧ ∃ sink ∈ ((Digraph.orient G.size G.pairs keep).openSource 0).descendants 0,
      network = ⟨(Digraph.orient G.size G.pairs keep).openSource 0,
        (Digraph.orient G.size G.pairs keep).ordered.length, 0, sink⟩ := by
  obtain ⟨o, ho, h⟩ := exists_of_bind h
  rw [opened, find?_start] at ho
  by_cases hpos : 0 < G.size
  · rw [if_pos hpos] at ho
    obtain ⟨sinks, hsorted, ho⟩ := exists_of_bind ho
    cases ho
    unfold Opened.withSink at h
    split at h
    · rename_i sink hsink
      cases h
      exact ⟨hpos, sink, (Names.mem_of_sorted hsorted sink).1 (List.mem_of_getElem? hsink), rfl⟩
    · cases h
  · rw [if_neg hpos] at ho
    cases ho

/-- What a network consists of that some draws give for a graph. -/
structure DrawnFrom (G : Graph) (keep : List Bool) (t : NamedNetwork α) : Prop where
  size_pos : 0 < G.size
  graph_eq : t.graph = (Digraph.orient G.size G.pairs keep).openSource 0
  arcCount_eq : t.arcCount = (Digraph.orient G.size G.pairs keep).ordered.length
  source_eq : t.source = 0
  sink_mem : t.sink ∈ t.graph.descendants 0
  nodeNames_eq : t.nodeNames = (List.range t.graph.size).map (NamedGraph.ofGraph G).names.name
  arcNames_eq : t.arcNames = t.written (NamedGraph.ofGraph G : NamedGraph α).names G.pairs keep
  number_eq : (NamedGraph.ofGraph G : NamedGraph α).names.number t.sink = .ok t.finish

theorem drawnFrom_of_namedOfDraws {keep : List Bool} {pick : Nat} {t : NamedNetwork α}
    (h : namedOfDraws (.ofGraph G) keep pick = .ok t) : DrawnFrom G keep t := by
  obtain ⟨network, hnet, h⟩ := exists_of_bind h
  obtain ⟨finish, hnum, h⟩ := exists_of_bind h
  cases h
  obtain ⟨hpos, sink, hsink, hnetwork⟩ := ofDraws_cases hnet
  have hgraph : network.graph = (Digraph.orient G.size G.pairs keep).openSource 0 := by
    rw [hnetwork]
  have hcount : network.arcCount = (Digraph.orient G.size G.pairs keep).ordered.length := by
    rw [hnetwork]
  have hsource : network.source = 0 := by rw [hnetwork]
  have hmem : network.sink ∈ network.graph.descendants 0 := by
    rw [hgraph, hnetwork]
    exact hsink
  exact ⟨hpos, hgraph, hcount, hsource, hmem, rfl, rfl, hnum⟩

section Drawn

variable {keep : List Bool} {t : NamedNetwork α}

theorem DrawnFrom.size_eq (h : DrawnFrom G keep t) : t.graph.size = G.size := by
  rw [h.graph_eq, Digraph.size_openSource, Digraph.size_orient]

theorem DrawnFrom.orient_pos (h : DrawnFrom G keep t) :
    0 < (Digraph.orient G.size G.pairs keep).size := by
  rw [Digraph.size_orient]
  exact h.size_pos

/-- All edges of a graph on so many nodes, loops included, become arcs that are entered properly, and
no arc is lost. -/
theorem DrawnFrom.numbered (hG : G.Ranged) (h : DrawnFrom G keep t) : t.Numbered := by
  have hdrawn : (Digraph.orient G.size G.pairs keep).Proper :=
    Digraph.proper_orient hG.lt_of_mem_pairs
  have hopen : t.graph.Proper := by
    rw [h.graph_eq]
    exact hdrawn.openSource h.orient_pos
  refine ⟨hopen, ?_, ?_⟩
  · rw [h.arcCount_eq, h.graph_eq, Digraph.length_openSource hdrawn h.orient_pos]
  · rw [h.arcNames_eq]
    refine List.map_congr_left fun a ha => ?_
    have hu := Digraph.lt_size_of_mem (Digraph.mem_ordered.1 ha)
    have hv := hopen.lt_size_of_mem (Digraph.mem_ordered.1 ha)
    rw [h.size_eq] at hu hv
    rw [name_ofGraph hu, headName_ofGraph _ hv]

end Drawn

theorem loopless_orient (hG : G.Simple) (keep : List Bool) (u : Nat) :
    u ∉ (Digraph.orient G.size G.pairs keep).successors u := by
  intro hu
  obtain ⟨e, k, hek, hd⟩ :=
    (Digraph.mem_orient hG.ranged.lt_of_mem_pairs).1 (Digraph.mem_ordered.2 hu)
  have hne := (hG.ends_of_mem_pairs (List.of_mem_zip hek).1).2.2
  rcases Digraph.ends_directed e k with h | h
  · rw [h] at hd
    rw [hd] at hne
    exact hne rfl
  · rw [h, Prod.mk.injEq] at hd
    exact hne (hd.2.trans hd.1.symm)

theorem sound_of_namedOfDraws (hG : G.Simple) {keep : List Bool} {pick : Nat}
    {t : NamedNetwork α} (h : namedOfDraws (.ofGraph G) keep pick = .ok t) : t.Sound := by
  have hdrawn := drawnFrom_of_namedOfDraws h
  obtain ⟨hproper, hcount, hnames⟩ := hdrawn.numbered hG.ranged
  have hpos : 0 < t.graph.size := by
    rw [hdrawn.size_eq]
    exact hdrawn.size_pos
  obtain ⟨hreach, hne⟩ := (Digraph.mem_descendants hproper hpos).1 hdrawn.sink_mem
  have hsink : t.sink < G.size := by
    rcases Relation.ReflTransGen.cases_tail hreach with h | ⟨u, -, hu⟩
    · exact absurd h hne
    · rw [← hdrawn.size_eq]
      exact hproper.lt_size_of_mem hu
  have hnumber : (NamedGraph.ofGraph G : NamedGraph α).names.number t.sink = .ok (t.sink : Int) :=
    Names.number_of_lt hsink
  refine ⟨hproper, fun u => ?_, hdrawn.source_eq, hpos, ?_, ?_, hcount, ?_, hnames, ?_⟩
  · rw [hdrawn.graph_eq]
    exact Digraph.loopless_openSource (Digraph.proper_orient hG.ranged.lt_of_mem_pairs)
      hdrawn.orient_pos (loopless_orient hG keep)
  · rw [hdrawn.source_eq]
    exact hne
  · rw [hdrawn.source_eq]
    exact hreach
  · exact (Except.ok.inj (hnumber.symm.trans hdrawn.number_eq)).symm
  · rw [hdrawn.nodeNames_eq, hdrawn.size_eq]
    exact List.map_congr_left fun v hv => name_ofGraph (List.mem_range.1 hv)

/-! ## Drawing -/

section Drawing

open Sampling

variable {σ : Type} (g : Generator σ)

/-- The directions that a generator draws for the edges of a graph. -/
def directions (G : Graph) (s : σ) : List Bool :=
  (many G.pairs.length (g.below 2) s).1.map (· != 0)

theorem length_directions (G : Graph) (s : σ) : (directions g G s).length = G.pairs.length := by
  rw [directions, List.length_map, length_many]

theorem exists_drawSink (base : NamedGraph α) (keep : List Bool) (s : σ) :
    ∃ pick, (drawSink g base keep s).1 = namedOfDraws base keep pick := by
  unfold drawSink namedOfDraws ofDraws
  cases opened base.names base.graph keep with
  | error why => exact ⟨0, rfl⟩
  | ok o => exact ⟨(g.below o.sinks.length s).1, rfl⟩

/-- Whatever a generator draws is a direction for each edge and a number that picks the sink. -/
theorem exists_draw (base : NamedGraph α) (s : σ) :
    ∃ pick, (draw g base s).1 = namedOfDraws base (directions g base.graph s) pick :=
  exists_drawSink g base _ (many base.graph.pairs.length (g.below 2) s).2

end Drawing

end Network
end Bilevel
