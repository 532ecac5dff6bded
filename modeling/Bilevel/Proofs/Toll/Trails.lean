import Bilevel.Proofs.Toll.Answer
import Bilevel.Proofs.Toll.Conservation

/-!
# Bilevel.Proofs.Toll.Trails

What a trail costs on the network is what the program says about its flow.

* `Costs` says what the arcs cost for given tolls: these are the prices on which the search for a path
  runs, weights with tolls on top. `arcPrice` is such a cost (`costs_arcPrice`).
* `objectives_of_trail`: a trail uses no arc twice, so that its flow is one on each of its arcs. The
  follower's objective of this flow adds up the costs, and the leader's the weights alone.
-/

namespace Bilevel

open Extended

namespace TollNetwork

/-- What the arcs cost for given tolls. -/
structure Costs (t : TollNetwork Extended) (tolls : Datum Extended) (x : List ℚ)
    (cost : Nat × Nat → ℚ) : Prop where
  /-- The tolls are taken as they are, and the costs are the prices that the search looks up. -/
  looked_up : t.tollItems (some tolls) = .ok (.inl (x.map finite)) ∧
    ∀ a ∈ t.graph.ordered,
      t.priceOf t.graph.firsts (t.prices (x.map finite)) a = finite (cost a)
  charged : ∀ (i : Nat) (a : Nat × Nat) (q : ℚ), t.tolledArcs[i]? = some (.int a.1, .int a.2) →
    x[i]? = some q → cost a = t.arcWeight a + q
  free : ∀ a ∈ t.graph.ordered, (.int a.1, .int a.2) ∉ t.tolledArcs → cost a = t.arcWeight a

variable {t : TollNetwork Extended} {p : Program Extended} {budget : Datum Extended}
  {integerTolls : Bool} {tolls : Datum Extended} {x : List ℚ} {a : Nat × Nat}

theorem costs_arcPrice (ht : t.Numbered) (hnodup : t.tolled.Nodup) (hx : tolls.Reads x)
    (hlength : x.length = t.tolled.length) : t.Costs tolls x (t.arcPrice x) where
  looked_up := ⟨tollItems_of_reads hx hlength, fun a _ => t.priceOf_eq x a⟩
  charged := by
    intro i a q hi hq
    rw [getElem?_tolledArcs ht] at hi
    obtain ⟨e, he, hname⟩ := Option.bind_eq_some_iff.1 hi
    rw [arcPrice_eq_add ht ((getElem?_arcNames_iff ht.network).1 hname), charge_of_getElem? hnodup he hq]
  free := by
    intro a ha hfree
    obtain ⟨e, he⟩ := List.mem_iff_getElem?.1 ha
    have hnot : e ∉ t.tolled := by
      intro hmem
      obtain ⟨i, hi⟩ := List.mem_iff_getElem?.1 hmem
      refine hfree (List.mem_iff_getElem?.2 ⟨i, ?_⟩)
      rw [getElem?_tolledArcs ht, hi]
      exact (getElem?_arcNames_iff ht.network).2 he
    rw [arcPrice_eq_add ht he, charge_of_notMem hnot, add_zero]

/-- The objectives at the flow of a trail. -/
theorem objectives_indicator (ht : t.Numbered) (hp : t.program budget integerTolls = .ok p)
    (hx : tolls.Reads x) (hlength : x.length = t.tolled.length) {path : List Nat}
    (hwalk : arcsOf path ⊆ t.graph.ordered) (htrail : (arcsOf path).Nodup) :
    p.objective .upper tolls (.vector ((indicator t.graph.ordered (arcsOf path)).map finite)) =
      .ok (finite (costOf t.arcWeight path)) ∧
    p.objective .lower tolls (.vector ((indicator t.graph.ordered (arcsOf path)).map finite)) =
      .ok (finite (costOf (t.arcPrice x) path)) := by
  have hnl : (indicator t.graph.ordered (arcsOf path)).length = p.nl := by
    rw [nl_eq ht hp, length_indicator]
  have htotal : ∀ cost, total t.graph.ordered (indicator t.graph.ordered (arcsOf path)) cost =
      costOf cost path := fun cost =>
    total_indicator ht.network.proper.nodup_ordered htrail hwalk cost
  obtain ⟨hupper, hlower⟩ :=
    Program.objective_of_reads hx (Datum.reads_vector _) (hlength.trans (nu_eq hp).symm) hnl
  rw [hupper, hlower, upperValue_eq ht hp, lowerValue_eq ht hp, htotal, htotal]
  exact ⟨rfl, rfl⟩

end TollNetwork

namespace TollRequest

variable {σ : Type} {g : Sampling.Generator σ} {state : σ} {r : TollRequest Extended}
  {origin : Network.Origin Extended} {G : Graph}

/-- **Trails.** The nodes of a walk that uses no arc twice become a flow. The follower's objective of
this flow is what the arcs of the walk cost, the tolls included, and the leader's objective is their
weight, whatever the tolls are. -/
theorem objectives_of_trail (hbase : Network.base origin r.n r.k = .ok (.ofGraph G))
    {s : TollSetting Extended} (hs : (r.generateFrom g state origin).2 = .ok s) {tolls : Datum Extended}
    {x : List ℚ} (hx : tolls.Reads x) (hcount : r.tolls.whole? = some (x.length : Int))
    {path : List Nat} (hwalk : ∀ a ∈ arcsOf path, a ∈ s.network.graph.ordered)
    (htrail : (arcsOf path).Nodup) :
    ∃ (cost : Nat × Nat → ℚ) (y : List ℚ), s.network.Costs tolls x cost ∧
      s.network.pathToFlow (.list (path.map fun (v : Nat) => .int v)) = .ok (y.map finite) ∧
      s.program.objective .lower tolls (.vector (y.map finite)) =
        .ok (finite (costOf cost path)) ∧
      s.program.objective .upper tolls (.vector (y.map finite)) =
        .ok (finite (costOf s.network.arcWeight path)) := by
  obtain ⟨ht, hnodup, hwhole, hp⟩ := numbered_of_generateFrom hbase hs
  have hlength : x.length = s.network.tolled.length := eq_of_whole? hcount hwhole
  obtain ⟨hupper, hlower⟩ := TollNetwork.objectives_indicator ht hp hx hlength hwalk htrail
  exact ⟨s.network.arcPrice x, _, TollNetwork.costs_arcPrice ht hnodup hx hlength,
    TollNetwork.pathToFlow_eq ht.network hwalk, hlower, hupper⟩

theorem generate_circle :
    (((triangle 2).generate allJoined).2.map fun s => s.network.graph.ordered) =
      .ok [(0, 1), (1, 2), (2, 0)] := by
  cbv

/-- A trail that comes back to its first node. The last arc can be charged, and its toll is negative. -/
theorem objectives_circle :
    ∃ s, ((triangle 2).generate allJoined).2 = .ok s ∧
      (∀ a ∈ arcsOf [0, 1, 2, 0], a ∈ s.network.graph.ordered) ∧ (arcsOf [0, 1, 2, 0]).Nodup ∧
      ∃ (cost : Nat × Nat → ℚ) (y : List ℚ), s.network.Costs (.list [.int (-1)]) [-1] cost ∧
        s.network.pathToFlow (.list ([0, 1, 2, 0].map fun (v : Nat) => .int v)) =
          .ok (y.map finite) ∧
        s.program.objective .lower (.list [.int (-1)]) (.vector (y.map finite)) =
          .ok (finite (costOf cost [0, 1, 2, 0])) ∧
        s.program.objective .upper (.list [.int (-1)]) (.vector (y.map finite)) =
          .ok (finite (costOf s.network.arcWeight [0, 1, 2, 0])) := by
  have hx : Datum.Reads (.list [.int (-1)]) [-1] := rfl
  obtain ⟨s, hs, hordered⟩ := exists_of_map generate_circle
  have hwalk : ∀ a ∈ arcsOf [0, 1, 2, 0], a ∈ s.network.graph.ordered := by
    rw [hordered]
    decide
  exact ⟨s, hs, hwalk, by decide,
    objectives_of_trail (base_triangle 2).1 hs hx rfl hwalk (by decide)⟩

end TollRequest
end Bilevel
