import Bilevel.Proofs.Arrays
import Bilevel.Proofs.Graph.Base
import Bilevel.Proofs.Toll.Prices

/-!
# Bilevel.Proofs.Toll.Conservation

The rows of the follower are the conservation of flow, neither more nor less.

* `Network.FlowWithin` says, node by node and up to a tolerance, that what leaves minus what enters is
  what is supplied there, and that the arcs carry between nothing and one; `Network.UnitFlow` is a
  flow of one unit from the source to the sink.
* `lowerVerdict_flow`: a check of the follower's level says which of the two families fails first, and
  does not look at the tolls. `check_lower_flow` states this for settings from any draws.
* `exists_path_of_accepted`: whatever is accepted without a tolerance runs from the source to the
  sink, along a path all of whose arcs carry something.
-/

namespace Bilevel

open Extended Linear

namespace Network

/-- What has to leave a node beyond what enters it. -/
def supplied (t : Network) (v : Nat) : ℚ :=
  if v = t.source then 1 else if v = t.sink then -1 else 0

/-- Flow is conserved at every node, up to a tolerance, and so are the capacities of the arcs. -/
structure FlowWithin (t : Network) (y : List ℚ) (eps : ℚ) : Prop where
  conserved : ∀ v < t.graph.size,
    |outflow t.graph.ordered y v - inflow t.graph.ordered y v - t.supplied v| ≤ eps
  capacity : ∀ q ∈ y, -eps ≤ q ∧ q ≤ 1 + eps

/-- A flow of one unit from the source to the sink, over arcs that carry at most one. -/
structure UnitFlow (t : Network) (y : List ℚ) : Prop where
  length_eq : y.length = t.graph.ordered.length
  capacity : ∀ q ∈ y, 0 ≤ q ∧ q ≤ 1
  conserved : ∀ v < t.graph.size, v ≠ t.source → v ≠ t.sink →
    outflow t.graph.ordered y v = inflow t.graph.ordered y v
  source_eq : outflow t.graph.ordered y t.source = inflow t.graph.ordered y t.source + 1
  sink_eq : inflow t.graph.ordered y t.sink = outflow t.graph.ordered y t.sink + 1

variable {t : Network} {y : List ℚ}

theorem unitSupply_eq_supplied (h : t.sink ≠ t.source) (v : Nat) :
    unitSupply t.source t.sink v = t.supplied v := by
  rw [unitSupply, supplied]
  by_cases hs : v = t.source
  · subst hs
    simp [h]
  · by_cases ht : v = t.sink
    · subst ht
      simp [h, Ne.symm h]
    · simp [hs, ht, Ne.symm hs, Ne.symm ht]

theorem FlowWithin.net_eq (h : t.FlowWithin y 0) {v : Nat} (hv : v < t.graph.size) :
    outflow t.graph.ordered y v - inflow t.graph.ordered y v = t.supplied v :=
  sub_eq_zero.1 (abs_nonpos_iff.1 (h.conserved v hv))

theorem FlowWithin.balance_eq (h : t.FlowWithin y 0) (hne : t.sink ≠ t.source) {v : Nat}
    (hv : v < t.graph.size) : balance t.graph.ordered y v = unitSupply t.source t.sink v := by
  rw [balance_eq_sub, unitSupply_eq_supplied hne]
  exact h.net_eq hv

theorem FlowWithin.nonneg (h : t.FlowWithin y 0) : ∀ q ∈ y, 0 ≤ q := by
  intro q hq
  have hlow := (h.capacity q hq).1
  rwa [neg_zero] at hlow

/-- The flow of a trail from the source to the sink is conserved. -/
theorem flowWithin_indicator (hg : t.graph.Proper) (hne : t.sink ≠ t.source) {path : List Nat}
    (hpath : t.graph.Leads t.source t.sink path) (htrail : (arcsOf path).Nodup) :
    t.FlowWithin (indicator t.graph.ordered (arcsOf path)) 0 := by
  refine ⟨fun v _ => ?_, fun q hq => ?_⟩
  · rw [← balance_eq_sub, ← unitSupply_eq_supplied hne, balance_indicator hg hpath htrail, sub_self,
      abs_zero]
  · simpa using indicator_bounds hq

/-- Without a tolerance what is conserved is a flow of one unit. -/
theorem flowWithin_zero_iff (hsource : t.source < t.graph.size) (hsink : t.sink < t.graph.size)
    (hne : t.sink ≠ t.source) (hy : y.length = t.graph.ordered.length) :
    t.FlowWithin y 0 ↔ t.UnitFlow y := by
  constructor
  · intro h
    refine ⟨hy, fun q hq => ?_, fun v hv hs ht => ?_, ?_, ?_⟩
    · simpa using h.capacity q hq
    · have hv := h.net_eq hv
      rw [supplied, if_neg hs, if_neg ht] at hv
      linarith
    · have hv := h.net_eq hsource
      rw [supplied, if_pos rfl] at hv
      linarith
    · have hv := h.net_eq hsink
      rw [supplied, if_neg hne, if_pos rfl] at hv
      linarith
  · intro h
    refine ⟨fun v hv => ?_, fun q hq => by simpa using h.capacity q hq⟩
    rw [abs_nonpos_iff, sub_eq_zero, supplied]
    by_cases hs : v = t.source
    · rw [if_pos hs, hs, h.source_eq]
      ring
    · rw [if_neg hs]
      by_cases ht : v = t.sink
      · rw [if_pos ht, ht, h.sink_eq]
        ring
      · rw [if_neg ht, h.conserved v hv hs ht, sub_self]

end Network

namespace TollNetwork

variable {t : TollNetwork Extended} {p : Program Extended} {budget : Datum Extended}
  {integerTolls : Bool} {x y : List ℚ} {eps : Option (Datum Extended)} {e : ℚ}

/-! ## What the check says -/

/-- No bound of the flows is an infinity. -/
theorem isFinite_yBox (t : TollNetwork Extended) (b : Extended) (integerTolls : Bool) :
    ∀ side, ∀ c ∈ (t.assembled b integerTolls).yBox.get side, c.IsFinite := by
  intro side c hc
  cases side with
  | lower => exact ⟨0, List.eq_of_mem_replicate hc⟩
  | upper => exact ⟨1, List.eq_of_mem_replicate hc⟩

open Classical in
/-- The check finds the first family of conditions that does not hold. The tolls play no part. -/
theorem lowerVerdict_flow (ht : t.Sound) (hp : t.program budget integerTolls = .ok p)
    (hx : x.length = t.tolled.length) (hy : y.length = t.graph.ordered.length)
    (he : Tolerance.ofRequest eps = .ok (.number (finite e))) :
    p.lowerVerdict (x.map finite) (y.map finite) eps =
      .ok (if ∀ v < t.graph.size,
          |outflow t.graph.ordered y v - inflow t.graph.ordered y v - t.supplied v| ≤ e then
        if ∀ q ∈ y, -e ≤ q ∧ q ≤ 1 + e then none else some .lowerBounds
      else some .lowerRows) := by
  obtain ⟨b, -, rfl⟩ := exists_assembled ht hp
  have hrows := rowsWithin_assembled ht b integerTolls x y e
  have hbounds : BoundsWithin (t.assembled b integerTolls).yBox y e ↔
      ∀ q ∈ y, -e ≤ q ∧ q ≤ 1 + e := boundsWithin_unit_iff hy e
  simp only [balance_eq_sub, Network.unitSupply_eq_supplied ht.network.sink_ne] at hrows
  rw [Program.lowerVerdict_eq (hx ▸ hasShape_A t b integerTolls) (hy ▸ hasShape_B t b integerTolls)
    (isFinite_A t b integerTolls) (isFinite_B ht b integerTolls)
    (fun c hc => (isFinite_b ht b integerTolls c hc).ne_undefined)
    (List.length_replicate.trans hy.symm) (List.length_replicate.trans hy.symm)
    (fun side c hc => (isFinite_yBox t b integerTolls side c hc).ne_undefined) he]
  simp only [hrows, hbounds]

theorem lowerVerdict_eq_none_iff (ht : t.Sound) (hp : t.program budget integerTolls = .ok p)
    (hx : x.length = t.tolled.length) (hy : y.length = t.graph.ordered.length)
    (he : Tolerance.ofRequest eps = .ok (.number (finite e))) :
    p.lowerVerdict (x.map finite) (y.map finite) eps = .ok none ↔ t.FlowWithin y e := by
  rw [lowerVerdict_flow ht hp hx hy he]
  constructor
  · intro h
    split at h
    · rename_i hconserved
      split at h
      · rename_i hcapacity
        exact ⟨hconserved, hcapacity⟩
      · cases h
    · cases h
  · intro h
    rw [if_pos h.conserved, if_pos h.capacity]

/-- What is accepted consists of numbers, one for each arc. -/
theorem exists_reads_of_accepted (ht : t.Sound) (hp : t.program budget integerTolls = .ok p)
    {tolls flow : Datum Extended} (hx : tolls.Reads x)
    (he : Tolerance.ofRequest eps = .ok (.number (finite e)))
    (h : p.check .lower tolls flow eps = .ok none) :
    x.length = t.tolled.length ∧ ∃ y, flow.Reads y ∧ y.length = t.graph.ordered.length := by
  have hnu := nu_eq hp
  have hnl := nl_eq ht.numbered hp
  obtain ⟨b, -, rfl⟩ := exists_assembled ht hp
  obtain ⟨xs, ys, hpoint⟩ := Program.exists_point_of_check h
  rw [(Program.check_of_point hpoint eps).2.1] at h
  obtain ⟨u, v, hu, hv, hus, hvs, rfl, rfl⟩ := Program.exists_of_point hpoint
  rw [hx] at hu
  cases hu
  rw [hnl] at hvs
  obtain ⟨y, hy, hlength, -⟩ := Program.exists_reads_of_bounds hv hvs List.length_replicate
    List.length_replicate (Program.boundsHold_of_lowerVerdict he h)
  exact ⟨(List.head_eq_of_cons_eq hus).trans hnu, y, hy, hlength⟩

end TollNetwork

namespace TollRequest

variable {σ : Type} {g : Sampling.Generator σ} {state : σ} {r : TollRequest Extended}
  {origin : Network.Origin Extended} {G : Graph}
  {tolls flow : Datum Extended} {x y : List ℚ} {eps : Option (Datum Extended)} {e : ℚ}

/-- **Conservation of flow.** A check of the follower's level never fails. It accepts exactly what is
conserved at every node and fits the capacities, up to the tolerance, whatever the tolls are; without
a tolerance these are the flows of one unit. -/
theorem check_lower_flow (hG : G.Simple) (hbase : Network.base origin r.n r.k = .ok (.ofGraph G))
    {s : TollSetting Extended} (hs : (r.generateFrom g state origin).2 = .ok s) (hx : tolls.Reads x)
    (hcount : r.tolls.whole? = some (x.length : Int)) (hy : flow.Reads y)
    (hlength : y.length = s.network.arcCount)
    (he : Tolerance.ofRequest eps = .ok (.number (finite e))) :
    (∃ verdict, s.program.check .lower tolls flow eps = .ok verdict ∧
      (verdict = none ↔ s.network.FlowWithin y e)) ∧
    (∀ (other : Datum Extended) (z : List ℚ), other.Reads z → z.length = x.length →
      s.program.check .lower other flow eps = s.program.check .lower tolls flow eps) ∧
    (e = 0 → (s.program.check .lower tolls flow eps = .ok none ↔ s.network.UnitFlow y)) := by
  obtain ⟨ht, hwhole, hp⟩ := sound_of_generateFrom hG hbase hs
  have htolled : x.length = s.network.tolled.length := eq_of_whole? hcount hwhole
  rw [ht.network.arcCount_eq] at hlength
  have hcheck : ∀ (other : Datum Extended) (z : List ℚ), other.Reads z → z.length = x.length →
      s.program.check .lower other flow eps =
        s.program.lowerVerdict (z.map finite) (y.map finite) eps := by
    intro other z hz hzx
    have hnu : z.length = s.program.nu := (hzx.trans htolled).trans (TollNetwork.nu_eq hp).symm
    have hnl : y.length = s.program.nl := hlength.trans (TollNetwork.nl_eq ht.numbered hp).symm
    exact (Program.check_of_point (Program.point_of_reads hz hy hnu hnl) eps).2.1
  have hverdict := TollNetwork.lowerVerdict_flow ht hp htolled hlength he
  have haccepts := TollNetwork.lowerVerdict_eq_none_iff ht hp htolled hlength he
  rw [hcheck tolls x hx rfl]
  refine ⟨⟨_, hverdict, ?_⟩, fun other z hz hzx => ?_, fun hzero => ?_⟩
  · rw [← haccepts, hverdict, Except.ok.injEq]
  · rw [hcheck other z hz hzx, hverdict]
    exact TollNetwork.lowerVerdict_flow ht hp (hzx.trans htolled) hlength he
  · subst hzero
    exact haccepts.trans (Network.flowWithin_zero_iff ht.network.source_lt ht.network.sink_lt
      ht.network.sink_ne hlength)

/-- The arcs lead from 0 to 1 and 2, and from 1 to the sink 2. One third goes the longer way. -/
def thirds : List ℚ :=
  [1 / 3, 2 / 3, 1 / 3]

theorem generate_triangle :
    (((triangle 5).generate allJoined).2.map fun s => (s.network.arcCount,
      s.program.check .lower (.list [.int 7]) (.vector (thirds.map finite)) (some (.int 0)))) =
      .ok (3, .ok none) := by
  cbv

theorem exists_triangle :
    ∃ s, ((triangle 5).generate allJoined).2 = .ok s ∧ s.network.arcCount = 3 ∧
      s.program.check .lower (.list [.int 7]) (.vector (thirds.map finite)) (some (.int 0)) =
        .ok none := by
  obtain ⟨s, hs, hdrawn⟩ := exists_of_map generate_triangle
  obtain ⟨hcount, hcheck⟩ := Prod.mk.inj hdrawn
  exact ⟨s, hs, hcount, hcheck⟩

theorem check_lower_triangle :
    ∃ s, ((triangle 5).generate allJoined).2 = .ok s ∧
      s.program.check .lower (.list [.int 7]) (.vector (thirds.map finite)) (some (.int 0)) =
        .ok none ∧
      s.program.check .lower (.list [.int 0]) (.vector (thirds.map finite)) (some (.int 0)) =
        .ok none ∧
      s.network.UnitFlow thirds := by
  obtain ⟨s, hs, hcount, hcheck⟩ := exists_triangle
  have hx : Datum.Reads (.list [.int 7]) [7] := rfl
  have hz : Datum.Reads (.list [.int 0]) [0] := rfl
  obtain ⟨-, hother, hzero⟩ := check_lower_flow (base_triangle 5).2 (base_triangle 5).1 hs hx rfl
    (Datum.reads_vector thirds) hcount.symm (show Tolerance.ofRequest (some (.int 0)) = _ from rfl)
  exact ⟨s, hs, hcheck, (hother _ _ hz rfl).trans hcheck, (hzero rfl).1 hcheck⟩

end TollRequest

/-! ## Paths in a flow -/

namespace TollNetwork

variable {t : TollNetwork Extended} {y : List ℚ}

/-- What is conserved runs along some path from the source to the sink. -/
theorem exists_path_of_flow (ht : t.Sound) (hy : t.FlowWithin y 0) :
    ∃ path, t.graph.Leads t.source t.sink path ∧ path.Nodup ∧ ∀ a ∈ arcsOf path, ∃ i q,
      t.arcNumber (.int a.1) (.int a.2) = .ok i ∧ y[i]? = some q ∧ 0 < q := by
  have hreach := reflTransGen_carries ht.ends_lt ht.network.source_lt ht.network.sink_lt hy.nonneg
    fun v hv => hy.balance_eq ht.network.sink_ne hv
  have hsteps : ∀ u v, Carries t.graph.ordered y u v → v ∈ t.graph.successors u := by
    rintro u v ⟨q, hmem, -⟩
    exact Digraph.mem_ordered.1 (List.of_mem_zip hmem).1
  obtain ⟨path, hpath, hnodup, hcarries⟩ := Digraph.exists_path hsteps hreach
  refine ⟨path, hpath, hnodup, fun a ha => ?_⟩
  obtain ⟨q, hmem, hpos⟩ := hcarries a ha
  obtain ⟨i, hi⟩ := List.mem_iff_getElem?.1 hmem
  obtain ⟨hia, hiq⟩ := List.getElem?_zip_eq_some.1 hi
  have hname := (getElem?_arcNames_iff ht.network.numbered).2 hia
  exact ⟨i, q, (arcNumber_eq_ok_iff ht.network.numbered).2 hname, hiq, hpos⟩

end TollNetwork

namespace TollRequest

variable {σ : Type} {g : Sampling.Generator σ} {state : σ} {r : TollRequest Extended}
  {origin : Network.Origin Extended} {G : Graph}
  {tolls flow : Datum Extended} {x y : List ℚ} {eps : Option (Datum Extended)} {e : ℚ}

/-- **Routing.** Whatever a check of the follower's level accepts without a tolerance is a list of
numbers, and all of them are positive along some path from the start to the finish. -/
theorem exists_path_of_accepted (hG : G.Simple)
    (hbase : Network.base origin r.n r.k = .ok (.ofGraph G)) {s : TollSetting Extended}
    (hs : (r.generateFrom g state origin).2 = .ok s) (hx : tolls.Reads x)
    (he : Tolerance.ofRequest eps = .ok (.number (finite 0)))
    (haccepted : s.program.check .lower tolls flow eps = .ok none) :
    ∃ (y : List ℚ) (u v : Nat) (path : List Nat), flow.Reads y ∧ (u : Int) = Network.start ∧
      (v : Int) = s.network.finish ∧ s.network.graph.Leads u v path ∧ path.Nodup ∧
      ∀ a ∈ arcsOf path, ∃ i q, s.network.arcNumber (.int a.1) (.int a.2) = .ok i ∧
        y[i]? = some q ∧ 0 < q := by
  obtain ⟨ht, -, hp⟩ := sound_of_generateFrom hG hbase hs
  obtain ⟨htolled, y, hy, hlength⟩ := TollNetwork.exists_reads_of_accepted ht hp hx he haccepted
  have hpoint := Program.point_of_reads hx hy (htolled.trans (TollNetwork.nu_eq hp).symm)
    (hlength.trans (TollNetwork.nl_eq ht.numbered hp).symm)
  rw [(Program.check_of_point hpoint eps).2.1] at haccepted
  have hflow := (TollNetwork.lowerVerdict_eq_none_iff ht hp htolled hlength he).1 haccepted
  obtain ⟨path, hpath, hnodup, hpositive⟩ := TollNetwork.exists_path_of_flow ht hflow
  refine ⟨y, s.network.source, s.network.sink, path, hy, ?_, ht.network.finish_eq.symm, hpath,
    hnodup, hpositive⟩
  rw [ht.network.source_eq]
  rfl

theorem exists_path_triangle :
    ∃ s, ((triangle 5).generate allJoined).2 = .ok s ∧
      s.program.check .lower (.list [.int 7]) (.vector (thirds.map finite)) (some (.int 0)) =
        .ok none ∧
      ∃ (y : List ℚ) (u v : Nat) (path : List Nat),
        Datum.Reads (.vector (thirds.map finite)) y ∧ (u : Int) = Network.start ∧
        (v : Int) = s.network.finish ∧ s.network.graph.Leads u v path ∧ path.Nodup ∧
        ∀ a ∈ arcsOf path, ∃ i q, s.network.arcNumber (.int a.1) (.int a.2) = .ok i ∧
          y[i]? = some q ∧ 0 < q := by
  obtain ⟨s, hs, -, hcheck⟩ := exists_triangle
  have hx : Datum.Reads (.list [.int 7]) [7] := rfl
  exact ⟨s, hs, hcheck, exists_path_of_accepted (base_triangle 5).2 (base_triangle 5).1 hs hx
    (show Tolerance.ofRequest (some (.int 0)) = _ from rfl) hcheck⟩

end TollRequest
end Bilevel
