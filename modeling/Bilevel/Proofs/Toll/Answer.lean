import Bilevel.Proofs.Graph.Base
import Bilevel.Proofs.Route.Shortest
import Bilevel.Proofs.Toll.Prices

/-!
# Bilevel.Proofs.Toll.Answer

The flow along a cheapest path is the follower's best answer.

* `Program.Answer` says that the follower may choose a flow, and that no flow it may choose, whole or
  fractional, has a smaller objective.
* `Route.Finder.Minimal` is what is asked of a search, and `minimal_search` says that the one that is
  used does it. `exists_cheapest`: for tolls that are not negative such a search finds a cheapest path.
* `answer_of_cheapest`: the flow of such a path is an answer. It fulfils the equations of the program,
  and by `le_total_of_balance` no other flow is cheaper.
* `shortestPathFlow_answer` puts this together for settings from any draws and any search.
-/

namespace Bilevel

open Extended

namespace Route

/-- Where no arc has a negative cost and the target can be reached, the search finds a path without
repeated nodes, and none is cheaper. -/
def Finder.Minimal (find : Finder) : Prop :=
  ∀ (g : Digraph) (cost : Nat × Nat → ℚ) (s t : Nat), g.Proper → (∀ a ∈ g.ordered, 0 ≤ cost a) →
    (∃ path, g.Leads s t path) →
    ∃ path, find Extended g (fun a => finite (cost a)) s t = .ok path ∧ Cheapest g cost s t path

/-- The search runs on extended numbers as it runs on rational ones. -/
theorem minimal_search : search.Minimal := by
  intro g cost s t hg hcost hreach
  rw [search, shortest_map hom_finite]
  exact shortest_spec hg hcost hreach

end Route

/-- What the follower may choose at no greater cost than anything else it may choose. -/
structure Program.Answer (p : Program Extended) (tolls : Datum Extended) (y : List ℚ) : Prop where
  length_eq : y.length = p.nl
  polytope : p.Polytope y
  optimal : ∀ (other : Datum Extended) (z : List ℚ), other.Reads z → z.length = p.nl →
    p.Polytope z → ∃ v w, p.objective .lower tolls (.vector (y.map finite)) = .ok (finite v) ∧
      p.objective .lower tolls other = .ok (finite w) ∧ v ≤ w

theorem Program.objective_of_reads {p : Program Extended} {tolls flow : Datum Extended}
    {x y : List ℚ} (hx : tolls.Reads x) (hy : flow.Reads y) (hnu : x.length = p.nu)
    (hnl : y.length = p.nl) :
    p.objective .upper tolls flow = .ok (p.upperValue (x.map finite) (y.map finite)) ∧
      p.objective .lower tolls flow = .ok (p.lowerValue (x.map finite) (y.map finite)) := by
  rw [objective, objective, point_of_reads hx hy hnu hnl]
  exact ⟨rfl, rfl⟩

namespace TollNetwork

variable {t : TollNetwork Extended} {p : Program Extended} {budget : Datum Extended}
  {integerTolls : Bool} {tolls : Datum Extended} {x : List ℚ} {find : Route.Finder}

/-! ## Finding the path -/

/-- Tolls that are numbers, one for each arc that can be charged, are taken as they are. -/
theorem tollItems_of_reads (hx : tolls.Reads x) (hlength : x.length = t.tolled.length) :
    t.tollItems (some tolls) = .ok (.inl (x.map finite)) := by
  have hitems : t.tollItems (some tolls) = (Program.coordinates tolls >>= fun given =>
      if t.tolled.isEmpty then return .inl [] else firstItems t.tolled.length given) := by
    cases tolls with
    | null => cases hx
    | bool b => rfl
    | int n => rfl
    | real q => rfl
    | text s => rfl
    | list items => rfl
    | object fields => rfl
  rw [hitems, Program.coordinates_of_reads hx]
  show (if t.tolled.isEmpty then _ else _) = _
  by_cases hempty : t.tolled.isEmpty
  · rw [if_pos hempty]
    rw [List.isEmpty_iff.1 hempty, List.length_nil, List.length_eq_zero_iff] at hlength
    rw [hlength]
    rfl
  · rw [if_neg hempty, firstItems]
    simp only
    rw [if_neg (by omega), ← hlength, List.take_of_length_le (by rw [List.length_map])]
    rfl

/-- For tolls that are not negative the search finds a cheapest path. -/
theorem exists_cheapest (hfind : find.Minimal) (ht : t.Sound) (hx : ∀ q ∈ x, 0 ≤ q) :
    ∃ path, t.cheapestPath find (x.map finite) = .ok path ∧
      Route.Cheapest t.graph (t.arcPrice x) t.source t.sink path := by
  have hprices : t.priceOf t.graph.firsts (t.prices (x.map finite)) =
      fun a => finite (t.arcPrice x a) := funext (t.priceOf_eq x)
  rw [cheapestPath, hprices]
  exact hfind t.graph (t.arcPrice x) t.source t.sink ht.network.proper
    (fun a ha => arcPrice_nonneg ht.numbered hx ha) (Digraph.exists_leads ht.network.reachable)

theorem nodeName_eq (ht : t.Sound) (v : Nat) : t.nodeName v = .int v := by
  rw [nodeName, ht.network.nodeNames_eq, List.getD_eq_getElem?_getD, List.getElem?_map]
  by_cases hv : v < t.graph.size
  · rw [List.getElem?_range hv]
    rfl
  · rw [List.getElem?_eq_none (by rw [List.length_range]; omega)]
    rfl

theorem flowAlong_of_cheapest (ht : t.Sound) {path : List Nat}
    (hpath : Route.Cheapest t.graph (t.arcPrice x) t.source t.sink path) :
    t.flowAlong (.ok path) = .ok ((indicator t.graph.ordered (arcsOf path)).map finite) := by
  have hnames : path.map t.nodeName = path.map fun (v : Nat) => .int v :=
    List.map_congr_left fun v _ => nodeName_eq ht v
  rw [flowAlong, hnames]
  exact pathToFlow_eq ht.network.numbered fun _ ha => hpath.1.mem_ordered ha

/-! ## Its flow -/

/-- The choices of the follower are the flows of one unit with amounts between zero and one. -/
theorem polytope_iff_balance (ht : t.Sound) (hp : t.program budget integerTolls = .ok p)
    {y : List ℚ} (hy : y.length = p.nl) :
    p.Polytope y ↔
      (∀ v < t.graph.size, balance t.graph.ordered y v = unitSupply t.source t.sink v) ∧
      ∀ q ∈ y, 0 ≤ q ∧ q ≤ 1 := by
  rw [nl_eq ht.numbered hp] at hy
  rw [polytope_iff ht hp [] y, lowerFeasible_iff ht hp hy]
  simp only [abs_nonpos_iff, sub_eq_zero, neg_zero, add_zero]

theorem polytope_indicator (ht : t.Sound) (hp : t.program budget integerTolls = .ok p)
    {path : List Nat} (hpath : Route.Cheapest t.graph (t.arcPrice x) t.source t.sink path) :
    p.Polytope (indicator t.graph.ordered (arcsOf path)) := by
  have hlength : (indicator t.graph.ordered (arcsOf path)).length = p.nl := by
    rw [nl_eq ht.numbered hp, length_indicator]
  refine (polytope_iff_balance ht hp hlength).2 ⟨fun v _ => ?_, fun _ hq => indicator_bounds hq⟩
  exact balance_indicator ht.network.proper hpath.1 (nodup_arcsOf hpath.2.1) v

/-- The flow of a cheapest path is the best choice of the follower. -/
theorem answer_of_cheapest (ht : t.Sound) (hp : t.program budget integerTolls = .ok p)
    (hx : tolls.Reads x) (hlength : x.length = t.tolled.length) (hnonneg : ∀ q ∈ x, 0 ≤ q)
    {path : List Nat} (hpath : Route.Cheapest t.graph (t.arcPrice x) t.source t.sink path) :
    p.Answer tolls (indicator t.graph.ordered (arcsOf path)) := by
  have hnu : x.length = p.nu := hlength.trans (nu_eq hp).symm
  have hnl : (indicator t.graph.ordered (arcsOf path)).length = p.nl := by
    rw [nl_eq ht.numbered hp, length_indicator]
  have hcost : ∀ a ∈ t.graph.ordered, 0 ≤ t.arcPrice x a := fun a ha => arcPrice_nonneg ht.numbered hnonneg ha
  refine ⟨hnl, polytope_indicator ht hp hpath, fun other z hz hzl hpoly => ?_⟩
  obtain ⟨hbalance, hbounds⟩ := (polytope_iff_balance ht hp hzl).1 hpoly
  have hvalue : total t.graph.ordered (indicator t.graph.ordered (arcsOf path)) (t.arcPrice x) =
      costOf (t.arcPrice x) path :=
    total_indicator ht.network.proper.nodup_ordered (nodup_arcsOf hpath.2.1)
      (fun _ ha => hpath.1.mem_ordered ha) _
  refine ⟨costOf (t.arcPrice x) path, total t.graph.ordered z (t.arcPrice x), ?_, ?_, ?_⟩
  · rw [(Program.objective_of_reads hx (Datum.reads_vector _) hnu hnl).2, lowerValue_eq ht.numbered hp, hvalue]
  · rw [(Program.objective_of_reads hx hz hnu hzl).2, lowerValue_eq ht.numbered hp]
  · exact Digraph.le_total_of_balance ht.network.proper ht.network.source_lt ht.network.sink_lt hcost
      (hpath.1.costOf_nonneg hcost) hpath.2.2 (fun q hq => (hbounds q hq).1) hbalance

end TollNetwork

namespace TollRequest

variable {σ : Type} {g : Sampling.Generator σ} {state : σ} {r : TollRequest Extended}
  {origin : Network.Origin Extended} {G : Graph}

/-- For tolls that are not negative, one for each arc that can be charged, the flow along a cheapest
path is found, whatever minimal search looks for it. It is the best that the follower can choose,
fractions included, and feasible for the follower. -/
theorem shortestPathFlow_answer (hG : G.Simple)
    (hbase : Network.base origin r.n r.k = .ok (.ofGraph G)) {s : TollSetting Extended}
    (hs : (r.generateFrom g state origin).2 = .ok s) {find : Route.Finder} (hfind : find.Minimal)
    {tolls : Datum Extended} {x : List ℚ} (hx : tolls.Reads x)
    (hcount : r.tolls.whole? = some (x.length : Int)) (hnonneg : ∀ q ∈ x, 0 ≤ q) :
    ∃ y, s.network.shortestPathFlowBy find (some tolls) = .ok (y.map finite) ∧
      s.program.Answer tolls y ∧ s.program.LowerFeasible x y 0 := by
  obtain ⟨ht, hwhole, hp⟩ := sound_of_generateFrom hG hbase hs
  have hlength : x.length = s.network.tolled.length := eq_of_whole? hcount hwhole
  obtain ⟨path, hrun, hpath⟩ := TollNetwork.exists_cheapest hfind ht hnonneg
  have hanswer := TollNetwork.answer_of_cheapest ht hp hx hlength hnonneg hpath
  refine ⟨_, ?_, hanswer, (TollNetwork.polytope_iff ht hp x _).1 hanswer.polytope⟩
  rw [TollNetwork.shortestPathFlowBy, TollNetwork.tollItems_of_reads hx hlength]
  show s.network.flowAlong (s.network.cheapestPath find (x.map finite)) = _
  rw [hrun]
  exact TollNetwork.flowAlong_of_cheapest ht hpath

/-- Three nodes, and one arc that can be charged. -/
def threeNodes : TollRequest Extended where
  n := .int 3
  k := .int 2
  tolls := .int 1
  budget := .int 100
  integerTolls := false
  seed := some 1

/-- Two edges that put the three nodes in a row. -/
def inARow : Network.Origin Extended :=
  .given (.list ([(0, 1), (1, 2)].map fun (e : Nat × Nat) => .list [.int e.1, .int e.2]))

theorem generate_inARow : (threeNodes.generate inARow).2.isOk = true := by cbv

theorem shortestPathFlow_inARow :
    ∃ s y, (threeNodes.generate inARow).2 = .ok s ∧
      s.network.shortestPathFlow (some (.list [.int 5])) = .ok (y.map finite) ∧
      s.program.Answer (.list [.int 5]) y ∧ s.program.LowerFeasible [5] y 0 := by
  have hedges : ∀ e ∈ [(0, 1), (1, 2)], e.1 < 3 ∧ e.2 < 3 ∧ e.1 ≠ e.2 := by decide
  obtain ⟨hbase, hG⟩ := Network.base_given hedges threeNodes.k (show threeNodes.n.whole? = _ from rfl)
  have hx : Datum.Reads (.list [.int 5]) [5] := rfl
  obtain ⟨s, hs⟩ := exists_of_isOk generate_inARow
  obtain ⟨y, hflow, hanswer, hfeasible⟩ :=
    shortestPathFlow_answer hG hbase hs Route.minimal_search hx rfl (by decide)
  exact ⟨s, y, hs, hflow, hanswer, hfeasible⟩

end TollRequest
end Bilevel
