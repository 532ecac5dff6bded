import Bilevel.Proofs.Graph.Base
import Bilevel.Proofs.Graph.Walk
import Bilevel.Scalar.Extended

/-!
# Bilevel.Proofs.Graph.Orientation

A random network orients the edges of its graph and has a sink that can be reached.

* `Digraph.Orients`: of the two directions of an edge exactly one is there, and nothing else. The
  drawn directions do this (`orients_orient`), and opening the source keeps it (`Orients.openSource`).
* `exists_namedOfDraws`: over a connected graph of at least two nodes a network is found, whatever is
  drawn, since the opened source has a neighbour to go to.
* `Network.Orientation` collects what such a network is; `generate_orientation` puts this together,
  for all draws and for every request.
-/

namespace Bilevel

namespace Graph

variable {g : Graph} {u v : Nat}

/-- Every two nodes hang together. -/
def Connected (g : Graph) : Prop :=
  ∀ u < g.size, ∀ v < g.size, Relation.ReflTransGen (fun a b => b ∈ g.neighbours a) u v

theorem Simple.lt_size_of_mem (hg : g.Simple) (h : v ∈ g.neighbours u) : v < g.size :=
  Links.lt_size_of_mem_linked (hg.symm u v h)

theorem Simple.nodup_pairs (hg : g.Simple) : g.pairs.Nodup :=
  (Links.nodup_all hg.nodup).filter _

theorem isConnected_iff_mem_reached :
    g.isConnected = true ↔ ∀ v < g.size, v ∈ reached g.neighbours g.size 0 := by
  have hall := List.length_filter_eq_length_iff (l := List.range g.size) (p := fun v =>
    (spread g.neighbours g.size (visit ([], Array.replicate g.size false) 0)).getD v false)
  rw [List.length_range] at hall
  rw [isConnected, decide_eq_true_iff]
  refine Iff.trans hall (forall_congr' fun v => ?_)
  simp only [reached, List.mem_filter, List.mem_range]
  exact ⟨fun h hv => ⟨hv, h hv⟩, fun h hv => (h hv).2⟩

/-- It is enough to look at what can be reached from the first node. -/
theorem isConnected_iff (hg : g.Simple) (hpos : 0 < g.size) :
    g.isConnected = true ↔ g.Connected := by
  have hmem : ∀ v, v ∈ reached g.neighbours g.size 0 ↔
      Relation.ReflTransGen (fun a b => b ∈ g.neighbours a) 0 v := fun _ =>
    mem_reached_iff (fun _ _ hw => hg.lt_size_of_mem hw) hpos
  rw [isConnected_iff_mem_reached]
  constructor
  · intro h u hu v hv
    have hsymm : Std.Symm fun a b => b ∈ g.neighbours a := ⟨fun a b => hg.symm a b⟩
    exact (Relation.ReflTransGen.stdSymm.symm _ _ ((hmem u).1 (h u hu))).trans ((hmem v).1 (h v hv))
  · intro h v hv
    exact (hmem v).2 (h 0 hpos v hv)

theorem Connected.exists_neighbour (hg : g.Connected) (hsize : 2 ≤ g.size) (hu : u < g.size) :
    ∃ v, v ∈ g.neighbours u := by
  obtain ⟨w, hw, hne⟩ : ∃ w < g.size, w ≠ u := by
    by_cases h : u = 0
    · exact ⟨1, by omega, by omega⟩
    · exact ⟨0, by omega, by omega⟩
  rcases Relation.ReflTransGen.cases_head (hg u hu w hw) with h | ⟨v, hv, -⟩
  · exact absurd h.symm hne
  · exact ⟨v, hv⟩

end Graph

/-! ## Directions -/

/-- Of the two directions of an edge exactly one is there, and there are no other arcs. -/
structure Digraph.Orients (d : Digraph) (G : Graph) : Prop where
  exactly_one : ∀ u, ∀ v ∈ G.neighbours u, ((u, v) ∈ d.ordered ↔ (v, u) ∉ d.ordered)
  joined : ∀ u v, (u, v) ∈ d.ordered → v ∈ G.neighbours u

namespace Digraph

variable {d : Digraph} {G : Graph} {s u v : Nat} {keep : List Bool}

theorem directed_eq_iff (e : Nat × Nat) (k : Bool) :
    directed e k = (u, v) ↔ (e = (u, v) ∧ k = true) ∨ (e = (v, u) ∧ k = false) := by
  obtain ⟨a, b⟩ := e
  cases k <;> simp [directed, and_comm]

theorem mem_orient_iff (hG : G.Simple) :
    (u, v) ∈ (orient G.size G.pairs keep).ordered ↔
      ((u, v), true) ∈ G.pairs.zip keep ∨ ((v, u), false) ∈ G.pairs.zip keep := by
  rw [mem_orient hG.ranged.lt_of_mem_pairs]
  simp only [directed_eq_iff]
  constructor
  · rintro ⟨e, k, hek, ⟨rfl, rfl⟩ | ⟨rfl, rfl⟩⟩
    · exact .inl hek
    · exact .inr hek
  · rintro (h | h)
    · exact ⟨_, _, h, .inl ⟨rfl, rfl⟩⟩
    · exact ⟨_, _, h, .inr ⟨rfl, rfl⟩⟩

theorem lt_of_mem_zip (hG : G.Simple) {k : Bool} (h : ((u, v), k) ∈ G.pairs.zip keep) :
    v ∈ G.neighbours u ∧ u < v := by
  have hpair := (List.of_mem_zip h).1
  obtain ⟨hv, hle⟩ := Graph.mem_pairs.1 hpair
  have hne := (hG.ends_of_mem_pairs hpair).2.2
  exact ⟨hv, by simp only at hne; omega⟩

theorem exists_mem_zip (hkeep : keep.length = G.pairs.length) (hv : v ∈ G.neighbours u)
    (huv : u < v) : ∃ k, ((u, v), k) ∈ G.pairs.zip keep := by
  obtain ⟨i, hi, he⟩ := List.mem_iff_getElem.1 (Graph.mem_pairs.2 ⟨hv, huv.le⟩)
  refine ⟨keep[i], List.mem_iff_getElem?.2 ⟨i, List.getElem?_zip_eq_some.2 ⟨?_, ?_⟩⟩⟩
  · exact List.getElem?_eq_some_iff.2 ⟨hi, he⟩
  · exact List.getElem?_eq_getElem (by omega)

theorem eq_of_mem_zip (hG : G.Simple) {e : Nat × Nat} {k l : Bool} (hk : (e, k) ∈ G.pairs.zip keep)
    (hl : (e, l) ∈ G.pairs.zip keep) : k = l := by
  obtain ⟨i, hi⟩ := List.mem_iff_getElem?.1 hk
  obtain ⟨j, hj⟩ := List.mem_iff_getElem?.1 hl
  obtain ⟨hie, hik⟩ := List.getElem?_zip_eq_some.1 hi
  obtain ⟨hje, hjl⟩ := List.getElem?_zip_eq_some.1 hj
  have hij : i = j := (List.getElem?_inj (List.getElem?_eq_some_iff.1 hie).1 hG.nodup_pairs).1
    (hie.trans hje.symm)
  rw [← hij, hik] at hjl
  exact Option.some.inj hjl

theorem orients_orient (hG : G.Simple) (hkeep : keep.length = G.pairs.length) :
    (orient G.size G.pairs keep).Orients G where
  exactly_one := by
    -- an edge is listed once, with the smaller node first, so that only its one draw is looked at
    have hlisted : ∀ u v, v ∈ G.neighbours u → u < v →
        ((u, v) ∈ (orient G.size G.pairs keep).ordered ↔
          (v, u) ∉ (orient G.size G.pairs keep).ordered) := by
      intro u v hv huv
      obtain ⟨k, hk⟩ := exists_mem_zip hkeep hv huv
      have hback : ∀ l, ((v, u), l) ∉ G.pairs.zip keep := by
        intro l hl
        have := (lt_of_mem_zip hG hl).2
        omega
      have honly : ∀ l, ((u, v), l) ∈ G.pairs.zip keep ↔ l = k := by
        intro l
        exact ⟨fun hl => eq_of_mem_zip hG hl hk, fun hl => hl ▸ hk⟩
      rw [mem_orient_iff hG, mem_orient_iff hG]
      simp only [hback, honly, or_false, false_or]
      cases k <;> simp
    intro u v hv
    rcases Nat.lt_trichotomy u v with huv | rfl | huv
    · exact hlisted u v hv huv
    · exact absurd hv (hG.irrefl u)
    · rw [hlisted v u (hG.symm u v hv) huv, not_not]
  joined := by
    intro u v h
    rcases (mem_orient_iff hG).1 h with h | h
    · exact (lt_of_mem_zip hG h).1
    · exact hG.symm _ _ (lt_of_mem_zip hG h).1

/-! ## The opened source -/

theorem Orients.loopless (ho : d.Orients G) (hG : G.Simple) : (u, u) ∉ d.ordered :=
  fun h => hG.irrefl u (ho.joined u u h)

theorem Orients.not_mem_of_isEmpty (ho : d.Orients G) (hG : G.Simple) (hd : d.Proper)
    (hs : s < d.size) (h : (d.descendants s).isEmpty) : (s, v) ∉ d.ordered := by
  intro hv
  have hvs := eq_of_mem_successors_of_isEmpty hd hs h (mem_ordered.1 hv)
  subst hvs
  exact ho.loopless hG hv

/-- A neighbour of such a source has its arc into the source. -/
theorem Orients.mem_of_isEmpty (ho : d.Orients G) (hG : G.Simple) (hd : d.Proper)
    (hs : s < d.size) (h : (d.descendants s).isEmpty) (hv : v ∈ G.neighbours s) :
    (v, s) ∈ d.ordered := by
  by_contra hnot
  exact ho.not_mem_of_isEmpty hG hd hs h ((ho.exactly_one s v hv).2 hnot)

theorem mem_openSource_iff (hd : d.Proper) (hs : s < d.size) (h : (d.descendants s).isEmpty) :
    (u, v) ∈ (d.openSource s).ordered ↔
      (v ≠ s ∧ (u, v) ∈ d.ordered) ∨ (u = s ∧ (v, s) ∈ d.ordered) := by
  rw [mem_openSource_of_isEmpty hd hs h]
  constructor
  · rintro ⟨⟨x, y⟩, hxy, he⟩
    by_cases hy : y = s
    · rw [opened, if_pos hy, Prod.mk.injEq] at he
      obtain ⟨rfl, rfl⟩ := he
      exact .inr ⟨rfl, hy ▸ hxy⟩
    · rw [opened, if_neg hy, Prod.mk.injEq] at he
      obtain ⟨rfl, rfl⟩ := he
      exact .inl ⟨hy, hxy⟩
  · rintro (⟨hv, huv⟩ | ⟨rfl, hvu⟩)
    · exact ⟨(u, v), huv, if_neg hv⟩
    · exact ⟨(v, u), hvu, if_pos rfl⟩

/-- Opening the source turns arcs round and keeps one direction of each edge. -/
theorem Orients.openSource (ho : d.Orients G) (hG : G.Simple) (hd : d.Proper) (hs : s < d.size) :
    (d.openSource s).Orients G := by
  by_cases h : (d.descendants s).isEmpty
  · have hmem := fun u v => mem_openSource_iff (u := u) (v := v) hd hs h
    refine ⟨fun u v hv => ?_, fun u v huv => ?_⟩
    · rw [hmem, hmem]
      by_cases hu : u = s
      · subst hu
        have hne : v ≠ u := fun hvu => hG.irrefl u (hvu ▸ hv)
        refine iff_of_true (.inr ⟨rfl, ho.mem_of_isEmpty hG hd hs h hv⟩) ?_
        rintro (⟨hself, -⟩ | ⟨hvu, -⟩)
        · exact hself rfl
        · exact hne hvu
      · by_cases hvs : v = s
        · subst hvs
          refine iff_of_false ?_ fun hnot =>
            hnot (.inr ⟨rfl, ho.mem_of_isEmpty hG hd hs h (hG.symm u v hv)⟩)
          rintro (⟨hself, -⟩ | ⟨huv, -⟩)
          · exact hself rfl
          · exact hu huv
        · simp [hu, hvs, ho.exactly_one u v hv]
    · rcases (hmem u v).1 huv with ⟨-, h⟩ | ⟨rfl, h⟩
      · exact ho.joined u v h
      · exact hG.symm v u (ho.joined v u h)
  · rw [openSource_eq, if_neg h]
    exact ho

theorem lt_of_mem_descendants (h : v ∈ d.descendants s) : v < d.size :=
  List.mem_range.1 (List.mem_filter.1 (List.mem_filter.1 h).1).1

theorem openSource_of_mem (hd : d.Proper) (hs : s < d.size) (hne : v ≠ s)
    (hv : (s, v) ∈ d.ordered) : d.openSource s = d := by
  rw [openSource_eq, if_neg]
  intro h
  exact hne (eq_of_mem_successors_of_isEmpty hd hs h (mem_ordered.1 hv))

theorem Orients.exists_descendant (ho : d.Orients G) (hG : G.Simple) (hd : d.Proper)
    (hs : s < d.size) (hv : v ∈ G.neighbours s) : ((d.openSource s).descendants s) ≠ [] := by
  have hne : v ≠ s := fun h => hG.irrefl s (h ▸ hv)
  by_cases h : (d.descendants s).isEmpty
  · have hmem : (s, v) ∈ (d.openSource s).ordered :=
      (mem_openSource_iff hd hs h).2 (.inr ⟨rfl, ho.mem_of_isEmpty hG hd hs h hv⟩)
    have hsize : s < (d.openSource s).size := by
      rw [size_openSource]
      exact hs
    exact List.ne_nil_of_mem
      ((mem_descendants (hd.openSource hs) hsize).2 ⟨.single (mem_ordered.1 hmem), hne⟩)
  · rw [openSource_eq, if_neg h]
    exact fun hnil => h (by rw [hnil]; rfl)

end Digraph

/-! ## Networks -/

namespace Names

variable {α : Type} [Scalar α]

theorem exists_sorted {names : Names α} {vs : List Nat} (h : ∀ v ∈ vs, v < names.plain) :
    ∃ ws, names.sorted vs = .ok ws ∧ ws.length = vs.length := by
  refine ⟨_, if_pos (.inr (.inl (List.countP_eq_zero.2 fun v hv => ?_))), List.length_mergeSort _⟩
  rw [name_of_lt names (h v hv)]
  exact Bool.false_ne_true

end Names

namespace Network

open Sampling

variable {α : Type} [Scalar α] {G : Graph} {keep : List Bool}

/-- What a random network is, given the drawn directions of the edges. -/
structure Orientation (G : Graph) (keep : List Bool) (t : NamedNetwork α) : Prop where
  size_eq : t.graph.size = G.size
  nodeNames_eq : t.nodeNames = (List.range G.size).map fun (v : Nat) => .int v
  arcNames_eq : t.arcNames = t.graph.ordered.map fun a => (.int a.1, .int a.2)
  nodup_ordered : t.graph.ordered.Nodup
  exactly_one : ∀ u, ∀ v ∈ G.neighbours u, ((u, v) ∈ t.graph.ordered ↔ (v, u) ∉ t.graph.ordered)
  none_else : ∀ u v, v ∉ G.neighbours u → (u, v) ∉ t.graph.ordered ∧ (v, u) ∉ t.graph.ordered
  loopless : ∀ u, (u, u) ∉ t.graph.ordered
  arcCount_eq : t.arcCount = t.graph.ordered.length
  edgeCount_eq : t.arcCount = G.pairs.length
  source_eq : t.source = 0
  sink_ne : t.sink ≠ 0
  finish_eq : t.finish = t.sink
  leads : ∃ p, t.graph.Leads 0 t.sink p
  /-- Away from the source all directions are as they were drawn. -/
  drawn_away : ∀ u v, u ≠ 0 → v ≠ 0 →
    ((u, v) ∈ t.graph.ordered ↔ (u, v) ∈ (Digraph.orient G.size G.pairs keep).ordered)
  /-- If an arc was drawn that leaves the source, nothing is turned round. -/
  drawn : (∃ v, (0, v) ∈ (Digraph.orient G.size G.pairs keep).ordered) →
    t.graph = Digraph.orient G.size G.pairs keep

/-- As many arcs as edges: an arc with its smaller end in front is the edge that it came from. -/
theorem length_orient (hG : G.Simple) (hkeep : keep.length = G.pairs.length) :
    (Digraph.orient G.size G.pairs keep).ordered.length = G.pairs.length := by
  have hends : (G.pairs.zipWith Digraph.directed keep).map
      (fun a => (min a.1 a.2, max a.1 a.2)) = G.pairs := by
    refine List.ext_getElem (by simp [hkeep]) fun i _ hi => ?_
    have hle : G.pairs[i].1 ≤ G.pairs[i].2 := (Graph.mem_pairs.1 (List.getElem_mem hi)).2
    rw [List.getElem_map, List.getElem_zipWith, Digraph.directed]
    split
    · rw [min_eq_left hle, max_eq_right hle]
    · rw [min_eq_right hle, max_eq_left hle]
  have hnodup : (G.pairs.zipWith Digraph.directed keep).Nodup := by
    refine List.Nodup.of_map (fun a => (min a.1 a.2, max a.1 a.2)) ?_
    rw [hends]
    exact hG.nodup_pairs
  have hproper : (Digraph.orient G.size G.pairs keep).Proper :=
    Digraph.proper_orient hG.ranged.lt_of_mem_pairs
  have hperm : List.Perm (Digraph.orient G.size G.pairs keep).ordered
      (G.pairs.zipWith Digraph.directed keep) := by
    rw [List.perm_ext_iff_of_nodup hproper.nodup_ordered hnodup]
    intro a
    rw [Digraph.mem_orient hG.ranged.lt_of_mem_pairs, Digraph.mem_zipWith_directed]
  rw [hperm.length_eq, List.length_zipWith, hkeep, min_self]

theorem orientation_of_namedOfDraws (hG : G.Simple) (hkeep : keep.length = G.pairs.length)
    {pick : Nat} {t : NamedNetwork α} (h : namedOfDraws (.ofGraph G) keep pick = .ok t) :
    Orientation G keep t := by
  have hdrawn := drawnFrom_of_namedOfDraws h
  have hsound := sound_of_namedOfDraws hG h
  have hproper : (Digraph.orient G.size G.pairs keep).Proper :=
    Digraph.proper_orient hG.ranged.lt_of_mem_pairs
  have horient := Digraph.orients_orient hG hkeep
  have hopen : t.graph.Orients G := by
    rw [hdrawn.graph_eq]
    exact horient.openSource hG hproper hdrawn.orient_pos
  refine ⟨hdrawn.size_eq, ?_, hsound.arcNames_eq, hsound.proper.nodup_ordered, hopen.exactly_one,
    fun u v hv => ⟨fun h => hv (hopen.joined u v h), fun h => hv (hG.symm v u (hopen.joined v u h))⟩,
    fun u => hopen.loopless hG, hsound.arcCount_eq, ?_, hdrawn.source_eq, ?_, hsound.finish_eq, ?_,
    fun u v hu hv => ?_, ?_⟩
  · rw [hdrawn.nodeNames_eq, hdrawn.size_eq]
    exact List.map_congr_left fun v hv => name_ofGraph (List.mem_range.1 hv)
  · rw [hdrawn.arcCount_eq, length_orient hG hkeep]
  · have hne := hsound.sink_ne
    rwa [hdrawn.source_eq] at hne
  · have hreach := hsound.reachable
    rw [hdrawn.source_eq] at hreach
    exact Digraph.exists_leads hreach
  · rw [hdrawn.graph_eq]
    by_cases h : ((Digraph.orient G.size G.pairs keep).descendants 0).isEmpty
    · rw [Digraph.mem_openSource_iff hproper hdrawn.orient_pos h]
      simp [hu, hv]
    · rw [Digraph.openSource_eq, if_neg h]
  · rintro ⟨v, hv⟩
    rw [hdrawn.graph_eq]
    refine Digraph.openSource_of_mem hproper hdrawn.orient_pos ?_ hv
    rintro rfl
    exact horient.loopless hG hv

theorem exists_namedOfDraws (hG : G.Simple) (hconn : G.Connected) (hsize : 2 ≤ G.size)
    (hkeep : keep.length = G.pairs.length) (pick : Nat) :
    ∃ t : NamedNetwork α, namedOfDraws (.ofGraph G) keep pick = .ok t := by
  have hproper : (Digraph.orient G.size G.pairs keep).Proper :=
    Digraph.proper_orient hG.ranged.lt_of_mem_pairs
  have hpos : 0 < (Digraph.orient G.size G.pairs keep).size := by
    rw [Digraph.size_orient]
    omega
  obtain ⟨w, hw⟩ := hconn.exists_neighbour hsize (show 0 < G.size by omega)
  have hsome := (Digraph.orients_orient hG hkeep).exists_descendant hG hproper hpos hw
  have hlt : ∀ v ∈ ((Digraph.orient G.size G.pairs keep).openSource 0).descendants 0,
      v < (NamedGraph.ofGraph G : NamedGraph α).names.plain := by
    intro v hv
    have hv := Digraph.lt_of_mem_descendants hv
    rwa [Digraph.size_openSource, Digraph.size_orient] at hv
  obtain ⟨ws, hsorted, hlength⟩ := Names.exists_sorted hlt
  have hpick : pick % ws.length < ws.length := by
    refine Nat.mod_lt _ ?_
    rw [hlength]
    exact List.length_pos_iff.2 hsome
  have hopened : opened (NamedGraph.ofGraph G : NamedGraph α).names G keep =
      .ok ⟨(Digraph.orient G.size G.pairs keep).openSource 0,
        (Digraph.orient G.size G.pairs keep).ordered.length, 0, ws⟩ := by
    rw [opened, find?_start, if_pos (show 0 < G.size by omega)]
    simp only [hsorted, bind, Except.bind]
    rfl
  have hnet : ofDraws (NamedGraph.ofGraph G : NamedGraph α).names G keep pick =
      .ok ⟨(Digraph.orient G.size G.pairs keep).openSource 0,
        (Digraph.orient G.size G.pairs keep).ordered.length, 0, ws[pick % ws.length]⟩ := by
    simp only [ofDraws, hopened, bind, Except.bind, Opened.withSink, List.getElem?_eq_getElem hpick]
    rfl
  have hsink := hlt _ ((Names.mem_of_sorted hsorted _).1 (List.getElem_mem hpick))
  have hgraph : (NamedGraph.ofGraph G : NamedGraph α).graph = G := rfl
  rw [namedOfDraws, hgraph, hnet]
  simp only [bind, Except.bind, named, Names.number_of_lt hsink]
  exact ⟨_, rfl⟩

section Drawing

variable {σ : Type} (g : Generator σ) (state : σ)

/-- The directions that are drawn for the edges after the seed of the undirected graph. -/
def drawnDirections (G : Graph) : List Bool :=
  directions g G (g.freshSeed state).2

theorem exists_generateFrom (origin : Origin α) {n k : Datum α} (rewiring : α)
    (hbase : base origin n k = .ok (.ofGraph G)) :
    ∃ pick, ∀ t : NamedNetwork α,
      namedOfDraws (.ofGraph G) (drawnDirections g state G) pick = .ok t →
        ∃ note, generateFrom g state origin n k rewiring = .ok (t, note) := by
  obtain ⟨pick, hdraw⟩ := exists_draw g (.ofGraph G : NamedGraph α) (g.freshSeed state).2
  refine ⟨pick, fun t ht => ⟨⟨n, k, rewiring, (g.freshSeed state).1⟩, ?_⟩⟩
  have hdrawn : (draw g (.ofGraph G : NamedGraph α) (g.freshSeed state).2).1 = .ok t := hdraw.trans ht
  rcases hseed : g.freshSeed state with ⟨baseSeed, s⟩
  rw [hseed] at hdrawn
  simp only [generateFrom, hseed, hbase, bind, Except.bind, hdrawn]
  rfl

theorem generateFrom_of_draws (r : NetworkRequest α) (origin : Origin α)
    (hbase : base origin r.n r.k = .ok (.ofGraph G)) :
    ∃ pick, ∀ t : NamedNetwork α,
      namedOfDraws (.ofGraph G) (drawnDirections g state G) pick = .ok t →
        ∃ note, r.generateFrom g state origin = .ok (t, note) := by
  obtain ⟨pick, hgen⟩ := exists_generateFrom g state origin r.rewiring hbase
  refine ⟨pick, fun t ht => ?_⟩
  obtain ⟨note, hnote⟩ := hgen t ht
  exact ⟨note, by rw [NetworkRequest.generateFrom, hnote]⟩

end Drawing

/-- **Random networks.** Over a connected simple graph of at least two nodes there is a network,
whatever is drawn, and every request is answered with one, whatever the generator is and in whatever
state. Each edge has exactly one of its two directions, the sink can be reached, and only arcs at a
source without a way out are turned round. -/
theorem generate_orientation (hG : G.Simple) (hconn : G.Connected) (hsize : 2 ≤ G.size) :
    (∀ (keep : List Bool) (pick : Nat), keep.length = G.pairs.length →
      ∃ t : NamedNetwork α, namedOfDraws (.ofGraph G) keep pick = .ok t ∧ Orientation G keep t) ∧
    ∀ {σ : Type} (g : Generator σ) (state : σ) (r : NetworkRequest α) (origin : Origin α),
      base origin r.n r.k = .ok (.ofGraph G) →
      ∃ t note, r.generateFrom g state origin = .ok (t, note) ∧
        Orientation G (drawnDirections g state G) t := by
  have hdraws : ∀ (keep : List Bool) (pick : Nat), keep.length = G.pairs.length →
      ∃ t : NamedNetwork α, namedOfDraws (.ofGraph G) keep pick = .ok t ∧ Orientation G keep t := by
    intro keep pick hkeep
    obtain ⟨t, ht⟩ := exists_namedOfDraws (α := α) hG hconn hsize hkeep pick
    exact ⟨t, ht, orientation_of_namedOfDraws hG hkeep ht⟩
  refine ⟨hdraws, fun g state r origin hbase => ?_⟩
  obtain ⟨pick, hgen⟩ := generateFrom_of_draws g state r origin hbase
  obtain ⟨t, ht, ho⟩ := hdraws _ pick (length_directions g G _)
  obtain ⟨note, hnote⟩ := hgen t ht
  exact ⟨t, note, hnote, ho⟩

/-- Two nodes beside the source, joined to each other, and one more behind the second. -/
def kite : List (Nat × Nat) :=
  [(0, 1), (0, 2), (1, 2), (2, 3)]

def fourNodes : NetworkRequest Extended where
  n := .int 4
  k := .int 2
  rewiring := .finite (1 / 10)
  seed := some 1

/-- Both arcs at the source were drawn into it, so that it has to be opened. -/
theorem generate_kite :
    (Graph.ofEdges 4 kite).Simple ∧ (Graph.ofEdges 4 kite).Connected ∧
    (∃ t : NamedNetwork Extended,
      namedOfDraws (.ofGraph (Graph.ofEdges 4 kite)) [false, false, true, true] 5 = .ok t ∧
        Orientation (Graph.ofEdges 4 kite) [false, false, true, true] t) ∧
    ∃ t note, fourNodes.generate (.given (.list (kite.map fun e =>
      .list [.int e.1, .int e.2]))) = .ok (t, note) ∧
        Orientation (Graph.ofEdges 4 kite)
          (drawnDirections Generator.linear (Source.ofSeed (some 1)) (Graph.ofEdges 4 kite)) t := by
  have hedges : ∀ e ∈ kite, e.1 < 4 ∧ e.2 < 4 ∧ e.1 ≠ e.2 := by decide
  obtain ⟨hbase, hG⟩ :=
    base_given (α := Extended) hedges fourNodes.k (show fourNodes.n.whole? = _ from rfl)
  have hconn : (Graph.ofEdges 4 kite).Connected := (Graph.isConnected_iff hG (by decide)).1 (by decide)
  obtain ⟨hdraws, hrequest⟩ := generate_orientation (α := Extended) hG hconn (by decide)
  exact ⟨hG, hconn, hdraws [false, false, true, true] 5 (by decide),
    hrequest Generator.linear (Source.ofSeed (some 1)) fourNodes _ hbase⟩

end Network
end Bilevel
