import Bilevel.Proofs.Toll.Trails
import Bilevel.Proofs.Tolerance

/-!
# Bilevel.Proofs.Toll.Untolled

Nothing is better for the leader than to charge nothing.

* `arcPrice_zeros`: without tolls the arcs cost what they weigh, and so the path that is found weighs
  least (`shortestPathFlow_none`).
* `upperFeasible_zeros`: a budget that is not negative allows to charge nothing, whether tolls have to be
  integers or not.
* `untolled_optimal`: the leader's objective is the weight of the follower's flow, and no flow that both
  levels accept, fractional ones included, weighs less.
-/

namespace Bilevel

open Extended Linear

namespace TollNetwork

variable {t : TollNetwork Extended} {p : Program Extended} {budget : Datum Extended} {b : Extended}
  {integerTolls : Bool} {x y : List ℚ}

/-! ## The path that is found -/

theorem charge_zeros (tolled : List Nat) (k e : Nat) : charge tolled (List.replicate k 0) e = 0 := by
  refine List.sum_eq_zero fun c hc => ?_
  obtain ⟨⟨i, q⟩, hiq, rfl⟩ := List.mem_map.1 hc
  have hq : q = 0 := List.eq_of_mem_replicate (List.of_mem_zip hiq).2
  simp only [hq, ite_self]

theorem arcPrice_zeros (ht : t.Numbered) (k : Nat) {a : Nat × Nat} (ha : a ∈ t.graph.ordered) :
    t.arcPrice (List.replicate k 0) a = t.arcWeight a := by
  obtain ⟨e, he⟩ := List.mem_iff_getElem?.1 ha
  rw [arcPrice_eq_add ht he, charge_zeros, add_zero]

theorem arcWeight_nonneg (t : TollNetwork Extended) (a : Nat × Nat) : 0 ≤ t.arcWeight a :=
  Nat.cast_nonneg _

theorem shortestPathFlow_none {find : Route.Finder} (hfind : find.Minimal) (ht : t.Sound) :
    ∃ path, t.shortestPathFlowBy find none =
        .ok ((indicator t.graph.ordered (arcsOf path)).map finite) ∧
      Route.Cheapest t.graph t.arcWeight t.source t.sink path := by
  have hnonneg : ∀ q ∈ List.replicate t.tolled.length (0 : ℚ), 0 ≤ q := fun q hq =>
    (List.eq_of_mem_replicate hq).ge
  obtain ⟨path, hrun, hpath⟩ := exists_cheapest hfind ht hnonneg
  have hzeros : (List.replicate t.tolled.length (0 : ℚ)).map finite =
      List.replicate t.tolled.length Scalar.zero := List.map_replicate
  have hcost : ∀ {q : List Nat}, t.graph.Leads t.source t.sink q →
      costOf (t.arcPrice (List.replicate t.tolled.length 0)) q = costOf t.arcWeight q := fun hq =>
    costOf_congr fun a ha => arcPrice_zeros ht.numbered _ (hq.mem_ordered ha)
  refine ⟨path, ?_, hpath.1, hpath.2.1, fun q hq => ?_⟩
  · have hflow := flowAlong_of_cheapest ht hpath
    rw [← hrun, hzeros] at hflow
    exact hflow
  · rw [← hcost hpath.1, ← hcost hq]
    exact hpath.2.2 q hq

/-! ## Charging nothing -/

theorem definite_assembled (ht : t.Sound) (hb : b ≠ .undefined) (integerTolls : Bool) :
    (t.assembled b integerTolls).Definite where
  G_finite := by
    intro r hr a ha
    rw [List.mem_singleton.1 hr] at ha
    exact ⟨1, List.eq_of_mem_replicate ha⟩
  H_finite := by
    intro r hr a ha
    rw [List.mem_singleton.1 hr] at ha
    exact ⟨0, List.eq_of_mem_replicate ha⟩
  A_finite := isFinite_A t _ _
  B_finite := isFinite_B ht _ _
  q_defined := by
    intro c hc
    rw [List.mem_singleton.1 hc]
    exact hb
  b_defined := fun c hc => (isFinite_b ht _ _ c hc).ne_undefined
  xBox_defined := by
    intro side c hc
    cases side with
    | lower =>
      rw [List.eq_of_mem_replicate hc]
      exact fun h => by cases h
    | upper =>
      rw [List.eq_of_mem_replicate hc]
      exact fun h => by cases h
  yBox_defined := fun side c hc => (isFinite_yBox t _ _ side c hc).ne_undefined

/-- The indices of the tolls that have to be integers. -/
def integerIndices (t : TollNetwork Extended) (integerTolls : Bool) : List ℤ :=
  if integerTolls then (List.range' 1 t.tolled.length).map fun (i : Nat) => (i : ℤ) else []

theorem Jx_assembled (t : TollNetwork Extended) (b : Extended) (integerTolls : Bool) :
    (t.assembled b integerTolls).Jx = (t.integerIndices integerTolls).map Datum.int := by
  cases integerTolls with
  | false => rfl
  | true => exact (List.map_map ..).symm

theorem mem_integerIndices (t : TollNetwork Extended) (integerTolls : Bool) :
    ∀ j ∈ t.integerIndices integerTolls, 1 ≤ j ∧ j ≤ t.tolled.length := by
  intro j hj
  cases integerTolls with
  | false => cases hj
  | true =>
    obtain ⟨i, hi, rfl⟩ := List.mem_map.1 hj
    rw [List.mem_range'_1] at hi
    omega

theorem upperFeasible_zeros (hb : Scalar.le Scalar.zero b = true) (integerTolls : Bool)
    (y : List ℚ) :
    (t.assembled b integerTolls).UpperFeasible (t.integerIndices integerTolls)
      (List.replicate t.tolled.length 0) y 0 := by
  have hbudget : (0 : EReal) ≤ b.toEReal := by
    have h := (le_iff.1 hb).2.2
    rwa [zero_eq, toEReal, Rat.cast_zero, EReal.coe_zero] at h
  -- the budget is the only row, no toll is bounded from above, and zero is an integer
  refine ⟨fun i r s c hr hs hc => ?_, fun j a low high ha hlow hhigh => ?_, fun j _ a ha => ⟨0, ?_⟩⟩
  · have hq : c ∈ [b] := List.mem_of_getElem? hc
    have hrow : s ∈ [List.replicate t.graph.ordered.length Scalar.zero] := List.mem_of_getElem? hs
    rw [List.mem_singleton.1 hq, List.mem_singleton.1 hrow, product_zeros_right, rational_zeros,
      product_zeros]
    simpa using hbudget
  · rw [List.eq_of_mem_replicate (List.mem_of_getElem? ha),
      List.eq_of_mem_replicate (List.mem_of_getElem? hlow),
      List.eq_of_mem_replicate (List.mem_of_getElem? hhigh)]
    constructor
    · simp [zero_eq, toEReal]
    · show _ ≤ (⊤ : EReal) + _
      simp
  · rw [List.eq_of_mem_replicate (List.mem_of_getElem? ha)]
    simp

/-- Both levels accept the flow of a path together with no tolls at all. -/
theorem check_zeros (ht : t.Sound) (hb : Scalar.le Scalar.zero b = true) (integerTolls : Bool)
    {path : List Nat} (hpath : t.graph.Leads t.source t.sink path) (hnodup : path.Nodup)
    {zeros flow : Datum Extended} (hzeros : zeros.Reads (List.replicate t.tolled.length 0))
    (hflow : flow.Reads (indicator t.graph.ordered (arcsOf path)))
    (hp : t.program budget integerTolls = .ok (t.assembled b integerTolls)) :
    (t.assembled b integerTolls).check .both zeros flow (some (.int 0)) = .ok none := by
  have hbudget : b ≠ .undefined := (le_iff.1 hb).2.1
  have hlength := length_indicator t.graph.ordered (arcsOf path)
  have hnu : (List.replicate t.tolled.length (0 : ℚ)).length = (t.assembled b integerTolls).nu :=
    List.length_replicate.trans (nu_eq hp).symm
  have hnl := hlength.trans (nl_eq ht.numbered hp).symm
  have hJ : ∀ j ∈ t.integerIndices integerTolls, 1 ≤ j ∧ j ≤ (t.assembled b integerTolls).nu := by
    rw [nu_eq hp]
    exact t.mem_integerIndices integerTolls
  obtain ⟨verdict, hupper, hiff⟩ := Program.upperVerdict_decides (shaped_assembled ht b integerTolls)
    (definite_assembled ht hbudget integerTolls) (Jx_assembled t b integerTolls) hnu hnl
    Tolerance.ofRequest_zero hJ
  rw [hiff.2 (upperFeasible_zeros hb integerTolls _)] at hupper
  have hlower := (lowerVerdict_eq_none_iff ht hp (hnu.trans (nu_eq hp)) hlength Tolerance.ofRequest_zero).2
    (Network.flowWithin_indicator ht.network.proper ht.network.sink_ne hpath (nodup_arcsOf hnodup))
  rw [(Program.check_of_point (Program.point_of_reads hzeros hflow hnu hnl) _).2.2, hupper]
  exact hlower

/-- Whatever both levels accept, its flow weighs at least what the cheapest path weighs. -/
theorem le_upperValue_of_check (ht : t.Sound) (hp : t.program budget integerTolls = .ok p)
    (hshaped : p.Shaped) {path : List Nat}
    (hpath : Route.Cheapest t.graph t.arcWeight t.source t.sink path) {tolls flow : Datum Extended}
    {eps : Option (Datum Extended)} (he : Tolerance.ofRequest eps = .ok (.number (finite 0)))
    (h : p.check .both tolls flow eps = .ok none) :
    ∃ w, p.objective .upper tolls flow = .ok (finite w) ∧ costOf t.arcWeight path ≤ w := by
  obtain ⟨x, y, hx, hy, hnu, hnl, -, hlower⟩ := Program.exists_reads_of_check hshaped he h
  have hlength : y.length = t.graph.ordered.length := hnl.trans (nl_eq ht.numbered hp)
  have hflow := (lowerVerdict_eq_none_iff ht hp (hnu.trans (nu_eq hp)) hlength he).1 hlower
  refine ⟨total t.graph.ordered y t.arcWeight, ?_, ?_⟩
  · rw [(Program.objective_of_reads hx hy hnu hnl).1, upperValue_eq ht.numbered hp]
  · exact Digraph.le_total_of_balance ht.network.proper ht.network.source_lt ht.network.sink_lt
      (fun a _ => t.arcWeight_nonneg a) (hpath.1.costOf_nonneg fun a _ => t.arcWeight_nonneg a)
      hpath.2.2 hflow.nonneg fun v hv => hflow.balance_eq ht.network.sink_ne hv

end TollNetwork

namespace TollRequest

variable {σ : Type} {g : Sampling.Generator σ} {state : σ} {r : TollRequest Extended}
  {origin : Network.Origin Extended} {G : Graph} {b : Extended}

/-- **No tolls.** With a budget that is not negative it is feasible to charge nothing, together with the
flow that any minimal search then finds, and this is an optimum for the leader: nothing that both levels
accept without a tolerance has a smaller objective. -/
theorem untolled_optimal (hG : G.Simple) (hbase : Network.base origin r.n r.k = .ok (.ofGraph G))
    {s : TollSetting Extended} (hs : (r.generateFrom g state origin).2 = .ok s)
    (hbudget : r.budget.toScalar = .ok b) (hb : Scalar.le Scalar.zero b = true)
    {find : Route.Finder} (hfind : find.Minimal) :
    ∃ y, s.network.shortestPathFlowBy find none = .ok y ∧
      (∀ (eps : Option (Datum Extended)) (e : Extended), Tolerance.ofRequest eps = .ok (.number e) →
        Scalar.le Scalar.zero e = true →
        s.program.check .both (.vector (List.replicate s.program.nu Scalar.zero)) (.vector y) eps =
          .ok none) ∧
      ∀ (tolls flow : Datum Extended) (eps : Option (Datum Extended)),
        Tolerance.ofRequest eps = .ok (.number (finite 0)) →
        s.program.check .both tolls flow eps = .ok none →
        ∃ v w, s.program.objective .upper (.vector (List.replicate s.program.nu Scalar.zero))
            (.vector y) = .ok (finite v) ∧
          s.program.objective .upper tolls flow = .ok (finite w) ∧ v ≤ w := by
  obtain ⟨ht, -, hp⟩ := sound_of_generateFrom hG hbase hs
  have hprogram := Except.ok.inj (hp.symm.trans (TollNetwork.program_eq ht hbudget r.integerTolls))
  have hnu := TollNetwork.nu_eq hp
  rw [hprogram] at hp hnu ⊢
  obtain ⟨path, hrun, hpath⟩ := TollNetwork.shortestPathFlow_none hfind ht
  have hzeros : Datum.Reads (.vector (List.replicate
      (s.network.assembled b r.integerTolls).nu Scalar.zero))
      (List.replicate s.network.tolled.length 0) := by
    have h := Datum.reads_vector (List.replicate s.network.tolled.length 0)
    rw [List.map_replicate] at h
    rw [hnu]
    exact h
  have hflow := Datum.reads_vector (indicator s.network.graph.ordered (arcsOf path))
  refine ⟨_, hrun, fun eps e he hnonneg => ?_, fun tolls flow eps he haccepted => ?_⟩
  · exact Program.check_of_le Tolerance.ofRequest_zero he hnonneg
      (TollNetwork.check_zeros ht hb r.integerTolls hpath.1 hpath.2.1 hzeros hflow hp)
  · obtain ⟨w, hw, hle⟩ := TollNetwork.le_upperValue_of_check ht hp
      (TollNetwork.shaped_assembled ht b r.integerTolls) hpath he haccepted
    obtain ⟨hupper, -⟩ := TollNetwork.objectives_indicator ht.numbered hp hzeros
      List.length_replicate (fun a ha => hpath.1.mem_ordered ha) (nodup_arcsOf hpath.2.1)
    exact ⟨_, w, hupper, hw, hle⟩

/-- The three nodes once more, with a toll that has to be an integer. -/
def integerTriangle : TollRequest Extended :=
  { triangle 5 with integerTolls := true }

theorem check_integerTriangle :
    ((integerTriangle.generate allJoined).2.map fun s =>
      s.program.check .both (.list [.int 7]) (.vector (thirds.map finite)) (some (.int 0))) =
      .ok (.ok none) := by
  cbv

/-- To charge nothing is no worse than a toll of seven under which one third goes the longer way. -/
theorem untolled_integerTriangle :
    ∃ s y, (integerTriangle.generate allJoined).2 = .ok s ∧
      s.network.shortestPathFlow none = .ok y ∧
      s.program.check .both (.vector (List.replicate s.program.nu Scalar.zero)) (.vector y) none =
        .ok none ∧
      s.program.check .both (.list [.int 7]) (.vector (thirds.map finite)) (some (.int 0)) =
        .ok none ∧
      ∃ v w, s.program.objective .upper (.vector (List.replicate s.program.nu Scalar.zero))
          (.vector y) = .ok (finite v) ∧
        s.program.objective .upper (.list [.int 7]) (.vector (thirds.map finite)) =
          .ok (finite w) ∧ v ≤ w := by
  obtain ⟨s, hs, hcheck⟩ := exists_of_map check_integerTriangle
  have hbase : Network.base allJoined integerTriangle.n integerTriangle.k =
      .ok (.ofGraph (Graph.ofEdges 3 triangleEdges)) := (base_triangle 5).1
  have hbudget : integerTriangle.budget.toScalar = .ok (finite 100) := rfl
  have hstandard : Tolerance.ofRequest (none : Option (Datum Extended)) =
      .ok (.number (finite (1 / 10000000))) := rfl
  obtain ⟨y, hrun, hfeasible, hoptimal⟩ :=
    untolled_optimal (base_triangle 5).2 hbase hs hbudget (by decide) Route.minimal_search
  exact ⟨s, y, hs, hrun, hfeasible none _ hstandard ((le_finite_iff 0 _).2 (by norm_num)), hcheck,
    hoptimal _ _ (some (.int 0)) rfl hcheck⟩

end TollRequest
end Bilevel
