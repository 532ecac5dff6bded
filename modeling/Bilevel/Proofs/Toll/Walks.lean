import Bilevel.Proofs.Toll.Conservation
import Bilevel.Proofs.Tolerance

/-!
# Bilevel.Proofs.Toll.Walks

Walks as flows, seen by the program.

* `getElem?_apply_B`: the rows of the follower add up what leaves a node minus what enters it.
* `check_of_flow`: the follower's level accepts a conserved flow, whatever the tolls are and however
  small the tolerance. The flow of a trail is conserved. Entries are written, not added up, so that no
  arc may be used twice.
* `pathToFlow_encodes` says which lists of nodes have a flow, what it is, and both of this.
-/

namespace Bilevel

open Extended Linear

namespace TollNetwork

variable {t : TollNetwork Extended} {p : Program Extended} {budget : Datum Extended}
  {integerTolls : Bool} {x y : List ℚ}

theorem getElem?_apply_B (ht : t.Sound) (hp : t.program budget integerTolls = .ok p)
    (hy : y.length = t.graph.ordered.length) {v : Nat} (hv : v < t.graph.size) :
    (apply p.B (y.map finite))[v]? = some (finite (balance t.graph.ordered y v)) := by
  obtain ⟨q, -, rfl⟩ := exists_assembled ht hp
  have hrow : (t.assembled q integerTolls).B[v]? =
      some ((t.graph.ordered.map (Bilevel.incidence v)).map finite) := by
    show (t.nodeRows ++ t.nodeRows.map (·.map Scalar.neg))[v]? = _
    rw [nodeRows_finite ht, List.map_map]
    exact getElem?_first_half _ _ hv
  rw [Program.apply_of_finite (hy ▸ hasShape_B t q integerTolls) (isFinite_B ht q integerTolls),
    List.getElem?_map, hrow, Option.map_some, rational_map_finite, product_map]
  rfl

theorem check_of_flow (ht : t.Sound) (hp : t.program budget integerTolls = .ok p)
    (hy : t.FlowWithin y 0) (hlength : y.length = t.graph.ordered.length) {tolls : Datum Extended}
    (hx : tolls.Reads x) (htolled : x.length = t.tolled.length) {eps : Option (Datum Extended)}
    {e : Extended} (he : Tolerance.ofRequest eps = .ok (.number e))
    (hnonneg : Scalar.le Scalar.zero e = true) :
    p.check .lower tolls (.vector (y.map finite)) eps = .ok none := by
  have hpoint := Program.point_of_reads hx (Datum.reads_vector y) (htolled.trans (nu_eq hp).symm)
    (hlength.trans (nl_eq ht.numbered hp).symm)
  have hzero : p.check .lower tolls (.vector (y.map finite)) (some (.int 0)) = .ok none := by
    rw [(Program.check_of_point hpoint _).2.1]
    exact (lowerVerdict_eq_none_iff ht hp htolled hlength Tolerance.ofRequest_zero).2 hy
  exact Program.check_of_le Tolerance.ofRequest_zero he hnonneg hzero

end TollNetwork

namespace TollRequest

variable {σ : Type} {g : Sampling.Generator σ} {state : σ} {r : TollRequest Extended}
  {origin : Network.Origin Extended} {G : Graph}

/-- **Walks.** A list of nodes is refused exactly if two consecutive ones have no arc between them, and
becomes a row of zeros and ones otherwise. For a walk that uses no arc twice, what leaves a node minus
what enters it is one at its first node, minus one at its last, and zero elsewhere; from the start to
the finish it is accepted. -/
theorem pathToFlow_encodes (hG : G.Simple) (hbase : Network.base origin r.n r.k = .ok (.ofGraph G))
    {s : TollSetting Extended} (hs : (r.generateFrom g state origin).2 = .ok s) :
    (∀ path : List Int,
      (s.network.pathToFlow (.list (path.map .int)) = .error .unknownArc ↔
        ∃ a ∈ stepsOf path, (.int a.1, .int a.2) ∉ s.network.arcNames) ∧
      ((∀ a ∈ stepsOf path, (.int a.1, .int a.2) ∈ s.network.arcNames) →
        ∃ y, s.network.pathToFlow (.list (path.map .int)) = .ok y ∧
          y.length = s.network.arcCount ∧
          ∀ e < s.network.arcCount, ∃ u v, s.network.arcNames[e]? = some (.int u, .int v) ∧
            y[e]? = some (if (u, v) ∈ stepsOf path then Scalar.one else Scalar.zero))) ∧
    ∀ (a c : Nat) (walk : List Nat), s.network.graph.Leads a c walk → (arcsOf walk).Nodup →
      ∃ y : List ℚ,
        s.network.pathToFlow (.list (walk.map fun (v : Nat) => .int v)) = .ok (y.map finite) ∧
        (∀ v < s.network.graph.size,
          outflow s.network.graph.ordered y v - inflow s.network.graph.ordered y v =
            unitSupply a c v ∧
          (apply s.program.B (y.map finite))[v]? = some (finite (unitSupply a c v))) ∧
        ((a : Int) = Network.start → (c : Int) = s.network.finish →
          ∀ (tolls : Datum Extended) (x : List ℚ) (eps : Option (Datum Extended)) (e : Extended),
            tolls.Reads x → r.tolls.whole? = some (x.length : Int) →
            Tolerance.ofRequest eps = .ok (.number e) → Scalar.le Scalar.zero e = true →
            s.program.check .lower tolls (.vector (y.map finite)) eps = .ok none) := by
  obtain ⟨ht, hwhole, hp⟩ := sound_of_generateFrom hG hbase hs
  have hnet := ht.network.numbered
  refine ⟨fun path => ⟨⟨fun h => ?_, TollNetwork.pathToFlow_of_unknown hnet⟩, fun h => ?_⟩,
    fun a c walk hwalk htrail => ?_⟩
  · by_contra hknown
    push Not at hknown
    obtain ⟨y, hrun, -⟩ := TollNetwork.pathToFlow_of_arcs hnet hknown
    rw [hrun] at h
    cases h
  · obtain ⟨y, hrun, hlength, hentry⟩ := TollNetwork.pathToFlow_of_arcs hnet h
    refine ⟨y, hrun, hlength, fun e he => ?_⟩
    rw [ht.network.arcCount_eq] at he
    have hname := (TollNetwork.getElem?_arcNames_iff hnet).2 (List.getElem?_eq_getElem he)
    exact ⟨_, _, hname, hentry e _ _ hname⟩
  · have harcs : arcsOf walk ⊆ s.network.graph.ordered := fun _ hb => hwalk.mem_ordered hb
    have hlength := length_indicator s.network.graph.ordered (arcsOf walk)
    have hbalance := balance_indicator ht.network.proper hwalk htrail
    refine ⟨_, TollNetwork.pathToFlow_eq hnet harcs, fun v hv => ⟨?_, ?_⟩, fun hstart hfinish => ?_⟩
    · rw [← balance_eq_sub, hbalance]
    · rw [TollNetwork.getElem?_apply_B ht hp hlength hv, hbalance]
    · have ha : a = s.network.source := by
        rw [ht.network.source_eq]
        exact Int.natCast_inj.1 hstart
      have hc : c = s.network.sink := by
        rw [ht.network.finish_eq] at hfinish
        exact Int.natCast_inj.1 hfinish
      subst ha hc
      intro tolls x eps e hx hcount he hnonneg
      exact TollNetwork.check_of_flow ht hp (Network.flowWithin_indicator ht.network.proper
        ht.network.sink_ne hwalk htrail) hlength hx (eq_of_whole? hcount hwhole) he hnonneg

theorem ordered_circle :
    (((triangle 19).generate allJoined).2.map fun s =>
      (s.network.finish, s.network.graph.ordered)) = .ok (2, [(0, 1), (1, 2), (2, 0)]) := by
  cbv

/-- Once round the circle nothing is left over at any node; two thirds of it lead to the finish. -/
theorem pathToFlow_encodes_circle :
    ∃ s, ((triangle 19).generate allJoined).2 = .ok s ∧ Network.start = 0 ∧ s.network.finish = 2 ∧
      s.network.pathToFlow (.list ([0, 2].map Datum.int)) = .error .unknownArc ∧
      (∃ y : List ℚ,
        s.network.pathToFlow (.list ([0, 1, 2, 0].map fun (v : Nat) => .int v)) =
          .ok (y.map finite) ∧
        ∀ v < s.network.graph.size,
          (apply s.program.B (y.map finite))[v]? = some (finite (unitSupply 0 0 v))) ∧
      ∃ y : List ℚ,
        s.network.pathToFlow (.list ([0, 1, 2].map fun (v : Nat) => .int v)) =
          .ok (y.map finite) ∧
        s.program.check .lower (.list [.int (-7)]) (.vector (y.map finite))
          (some (.real Scalar.infinity)) = .ok none := by
  obtain ⟨s, hs, hdrawn⟩ := exists_of_map ordered_circle
  obtain ⟨hfinish, hordered⟩ := Prod.mk.inj hdrawn
  obtain ⟨hbase, hG⟩ := base_triangle 19
  have hstep : ∀ a ∈ [(0, 1), (1, 2), (2, 0)], a.2 ∈ s.network.graph.successors a.1 := by
    intro a ha
    exact Digraph.mem_ordered.1 (hordered ▸ ha)
  have hnames : s.network.arcNames =
      [(.int 0, .int 1), (.int 1, .int 2), (.int 2, .int 0)] := by
    rw [(sound_of_generateFrom hG hbase hs).1.network.arcNames_eq, hordered]
    rfl
  have hpath : s.network.graph.Leads 0 2 [0, 1, 2] :=
    .cons (hstep (0, 1) (by decide)) (.cons (hstep (1, 2) (by decide)) (.refl 2))
  have hx : Datum.Reads (.list [.int (-7)]) [-7] := rfl
  obtain ⟨hlists, hwalks⟩ := pathToFlow_encodes hG hbase hs
  obtain ⟨y, hrun, hbalance, -⟩ :=
    hwalks 0 0 [0, 1, 2, 0] (hpath.snoc (hstep (2, 0) (by decide))) (by decide)
  obtain ⟨z, hrun', -, haccepted⟩ := hwalks 0 2 [0, 1, 2] hpath (by decide)
  refine ⟨s, hs, rfl, hfinish, (hlists [0, 2]).1.2 ⟨(0, 2), List.mem_cons_self, ?_⟩,
    ⟨y, hrun, fun v hv => (hbalance v hv).2⟩, z, hrun',
    haccepted rfl hfinish.symm _ _ _ _ hx rfl rfl rfl⟩
  rw [hnames]
  simp

end TollRequest
end Bilevel
