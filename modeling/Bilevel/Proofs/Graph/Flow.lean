import Bilevel.Proofs.Graph.Arcs
import Bilevel.Proofs.Graph.Walk
import Mathlib.Algebra.BigOperators.Group.Finset.Piecewise
import Mathlib.Algebra.Order.Archimedean.Real.Basic
import Mathlib.Tactic.Linarith
import Mathlib.Tactic.Ring

/-!
# Bilevel.Proofs.Graph.Flow

Flows on the arcs of a graph, and why none is cheaper than a cheapest walk.

* A flow has an amount for every arc of a list. `total` adds up amounts times values of the arcs, and
  `balance` is what leaves a node minus what enters it.
* `total_indicator`: over a walk's own flow, totals are sums over the arcs of the walk. Its balance is
  one at the start, minus one at the end and zero elsewhere (`balance_indicator`).
* `sum_drops_of_balance`: a flow of one unit carries the difference of the potentials of its ends.
* `reflTransGen_carries`: the arcs that carry something lead from its start to its end, since no cut
  can be between them.
* `le_total_of_balance`: a flow of one unit costs at least what every walk costs at least. The
  distances from the source, cut off at that bound, are potentials that show it.
-/

namespace Bilevel

/-- The sum over all arcs of the amount times a value of the arc. -/
def total (arcs : List (Nat × Nat)) (y : List ℚ) (f : Nat × Nat → ℚ) : ℚ :=
  ((arcs.zip y).map fun (a, q) => f a * q).sum

/-- One for an arc that leaves the node, minus one for one that enters it. -/
def incidence (v : Nat) (a : Nat × Nat) : ℚ :=
  (if a.1 = v then 1 else 0) - (if a.2 = v then 1 else 0)

/-- What leaves a node minus what enters it. -/
def balance (arcs : List (Nat × Nat)) (y : List ℚ) (v : Nat) : ℚ :=
  total arcs y (incidence v)

/-- The balance of one unit from `s` to `t`. -/
def unitSupply (s t v : Nat) : ℚ :=
  (if s = v then 1 else 0) - (if t = v then 1 else 0)

def outflow (arcs : List (Nat × Nat)) (y : List ℚ) (v : Nat) : ℚ :=
  (((arcs.zip y).filter fun p => p.1.1 = v).map Prod.snd).sum

def inflow (arcs : List (Nat × Nat)) (y : List ℚ) (v : Nat) : ℚ :=
  (((arcs.zip y).filter fun p => p.1.2 = v).map Prod.snd).sum

theorem total_cons (a : Nat × Nat) (arcs : List (Nat × Nat)) (q : ℚ) (y : List ℚ)
    (f : Nat × Nat → ℚ) : total (a :: arcs) (q :: y) f = f a * q + total arcs y f := by
  rw [total, List.zip_cons_cons, List.map_cons, List.sum_cons]
  rfl

theorem total_map (arcs : List (Nat × Nat)) (h f : Nat × Nat → ℚ) :
    total arcs (arcs.map h) f = (arcs.map fun a => f a * h a).sum := by
  induction arcs with
  | nil => rfl
  | cons a arcs ih => rw [List.map_cons, total_cons, ih, List.map_cons, List.sum_cons]

theorem balance_eq_sub (arcs : List (Nat × Nat)) (y : List ℚ) (v : Nat) :
    balance arcs y v = outflow arcs y v - inflow arcs y v := by
  rw [balance, total, outflow, inflow]
  induction arcs.zip y with
  | nil => exact (sub_zero 0).symm
  | cons p l ih =>
    obtain ⟨⟨u, w⟩, q⟩ := p
    have hterm : incidence v (u, w) = (if u = v then 1 else 0) - (if w = v then 1 else 0) := rfl
    rw [List.map_cons, List.sum_cons, ih, List.filter_cons, List.filter_cons]
    simp only [hterm]
    by_cases hu : u = v
    · by_cases hw : w = v
      · simp [hu, hw]
      · simp [hu, hw]
        ring
    · by_cases hw : w = v
      · simp [hu, hw]
        ring
      · simp [hu, hw]

/-! ## The flow of a walk -/

/-- One on the arcs of a list, and zero elsewhere. -/
def indicator (arcs path : List (Nat × Nat)) : List ℚ :=
  arcs.map fun a => if a ∈ path then 1 else 0

@[simp] theorem length_indicator (arcs path : List (Nat × Nat)) :
    (indicator arcs path).length = arcs.length :=
  List.length_map _

theorem indicator_bounds {arcs path : List (Nat × Nat)} {q : ℚ} (hq : q ∈ indicator arcs path) :
    0 ≤ q ∧ q ≤ 1 := by
  obtain ⟨a, -, rfl⟩ := List.mem_map.1 hq
  split
  · exact ⟨zero_le_one, le_rfl⟩
  · exact ⟨le_rfl, zero_le_one⟩

theorem total_indicator {arcs path : List (Nat × Nat)} (harcs : arcs.Nodup) (hpath : path.Nodup)
    (hsub : path ⊆ arcs) (f : Nat × Nat → ℚ) :
    total arcs (indicator arcs path) f = (path.map f).sum := by
  have hite : ∀ a, f a * (if a ∈ path then 1 else 0) = if a ∈ path.toFinset then f a else 0 := by
    intro a
    by_cases ha : a ∈ path
    · rw [if_pos ha, if_pos (List.mem_toFinset.2 ha), mul_one]
    · rw [if_neg ha, if_neg fun h => ha (List.mem_toFinset.1 h), mul_zero]
  have hinter : arcs.toFinset ∩ path.toFinset = path.toFinset :=
    Finset.inter_eq_right.2 fun a ha => List.mem_toFinset.2 (hsub (List.mem_toFinset.1 ha))
  rw [indicator, total_map, ← List.sum_toFinset _ harcs, ← List.sum_toFinset _ hpath]
  simp only [hite]
  rw [Finset.sum_ite_mem, hinter]

theorem balance_indicator {g : Digraph} (hg : g.Proper) {s t : Nat} {p : List Nat}
    (hp : g.Leads s t p) (hnodup : (arcsOf p).Nodup) (v : Nat) :
    balance g.ordered (indicator g.ordered (arcsOf p)) v = unitSupply s t v := by
  rw [balance, total_indicator hg.nodup_ordered hnodup fun a ha => hp.mem_ordered ha]
  exact hp.sum_arcsOf fun w => if w = v then 1 else 0

/-! ## Potentials -/

/-- Differences of potentials over a flow, by arcs and by nodes. -/
theorem sum_mul_balance (π : Nat → ℝ) {n : Nat} {arcs : List (Nat × Nat)}
    (harcs : ∀ a ∈ arcs, a.1 < n ∧ a.2 < n) (y : List ℚ) :
    ∑ v ∈ Finset.range n, π v * (balance arcs y v : ℝ) =
      ((arcs.zip y).map fun (a, q) => (π a.1 - π a.2) * (q : ℝ)).sum := by
  induction arcs generalizing y with
  | nil =>
    refine Finset.sum_eq_zero fun v _ => ?_
    show π v * ((0 : ℚ) : ℝ) = 0
    rw [Rat.cast_zero, mul_zero]
  | cons a arcs ih =>
    cases y with
    | nil =>
      refine Finset.sum_eq_zero fun v _ => ?_
      show π v * ((0 : ℚ) : ℝ) = 0
      rw [Rat.cast_zero, mul_zero]
    | cons q y =>
      obtain ⟨h1, h2⟩ := harcs a List.mem_cons_self
      have hpoint : ∀ v, π v * (balance (a :: arcs) (q :: y) v : ℝ) =
          ((if a.1 = v then π v * q else 0) - (if a.2 = v then π v * q else 0)) +
            π v * (balance arcs y v : ℝ) := by
        intro v
        rw [balance, total_cons, incidence]
        push_cast
        rw [← balance]
        split <;> split <;> ring
      rw [Finset.sum_congr rfl fun v _ => hpoint v, Finset.sum_add_distrib, Finset.sum_sub_distrib,
        Finset.sum_ite_eq, Finset.sum_ite_eq, if_pos (Finset.mem_range.2 h1),
        if_pos (Finset.mem_range.2 h2), ih (fun b hb => harcs b (List.mem_cons_of_mem a hb)),
        List.zip_cons_cons, List.map_cons, List.sum_cons]
      ring

/-- A flow of one unit carries the difference of the potentials of its two ends. -/
theorem sum_drops_of_balance (π : Nat → ℝ) {n s t : Nat} {arcs : List (Nat × Nat)}
    (harcs : ∀ a ∈ arcs, a.1 < n ∧ a.2 < n) (hs : s < n) (ht : t < n) {y : List ℚ}
    (hbalance : ∀ v < n, balance arcs y v = unitSupply s t v) :
    ((arcs.zip y).map fun (a, q) => (π a.1 - π a.2) * (q : ℝ)).sum = π s - π t := by
  have hpoint : ∀ v ∈ Finset.range n, π v * (balance arcs y v : ℝ) =
      (if s = v then π v else 0) - (if t = v then π v else 0) := by
    intro v hv
    rw [hbalance v (Finset.mem_range.1 hv), unitSupply]
    push_cast
    split <;> split <;> ring
  rw [← sum_mul_balance π harcs, Finset.sum_congr rfl hpoint, Finset.sum_sub_distrib,
    Finset.sum_ite_eq, Finset.sum_ite_eq, if_pos (Finset.mem_range.2 hs),
    if_pos (Finset.mem_range.2 ht)]

theorem sum_le_cast_total {arcs : List (Nat × Nat)} {y : List ℚ} (hy : ∀ q ∈ y, 0 ≤ q)
    {d : Nat × Nat → ℝ} {f : Nat × Nat → ℚ} (hd : ∀ a ∈ arcs, d a ≤ f a) :
    ((arcs.zip y).map fun (a, q) => d a * (q : ℝ)).sum ≤ (total arcs y f : ℝ) := by
  induction arcs generalizing y with
  | nil => exact le_of_eq (Rat.cast_zero (α := ℝ)).symm
  | cons a arcs ih =>
    cases y with
    | nil => exact le_of_eq (Rat.cast_zero (α := ℝ)).symm
    | cons q y =>
      have hhead : d a * (q : ℝ) ≤ f a * (q : ℝ) :=
        mul_le_mul_of_nonneg_right (hd a List.mem_cons_self)
          (Rat.cast_nonneg.2 (hy q List.mem_cons_self))
      have htail := ih (fun r hr => hy r (List.mem_cons_of_mem q hr))
        fun b hb => hd b (List.mem_cons_of_mem a hb)
      rw [List.zip_cons_cons, List.map_cons, List.sum_cons, total_cons]
      push_cast
      exact add_le_add hhead htail

/-! ## Cuts -/

/-- Some of the flow runs along the arc. -/
def Carries (arcs : List (Nat × Nat)) (y : List ℚ) (u v : Nat) : Prop :=
  ∃ q, ((u, v), q) ∈ arcs.zip y ∧ 0 < q

open Classical in
/-- The arcs that carry a flow of one unit lead from its start to its end. Otherwise the nodes that
they lead to would be left by one unit, and by no arc that carries anything. -/
theorem reflTransGen_carries {n s t : Nat} {arcs : List (Nat × Nat)}
    (harcs : ∀ a ∈ arcs, a.1 < n ∧ a.2 < n) (hs : s < n) (ht : t < n) {y : List ℚ}
    (hy : ∀ q ∈ y, 0 ≤ q) (hbalance : ∀ v < n, balance arcs y v = unitSupply s t v) :
    Relation.ReflTransGen (Carries arcs y) s t := by
  by_contra hcut
  -- as a potential, the side of the cut never rises along an arc that carries something
  let side : Nat → ℝ := fun v => if Relation.ReflTransGen (Carries arcs y) s v then 0 else 1
  have hends : side s - side t = -1 := by
    simp only [side, if_pos Relation.ReflTransGen.refl, if_neg hcut, zero_sub]
  have hdrops := sum_drops_of_balance side harcs hs ht hbalance
  rw [hends] at hdrops
  have hterms : 0 ≤ ((arcs.zip y).map fun (a, q) => (side a.1 - side a.2) * (q : ℝ)).sum := by
    refine List.sum_nonneg fun c hc => ?_
    obtain ⟨⟨⟨u, v⟩, q⟩, hmem, rfl⟩ := List.mem_map.1 hc
    have hq : 0 ≤ q := hy q (List.of_mem_zip hmem).2
    by_cases hu : Relation.ReflTransGen (Carries arcs y) s u
    · rcases hq.lt_or_eq with hpos | rfl
      · simp only [side, if_pos hu, if_pos (hu.tail ⟨q, hmem, hpos⟩), sub_self, zero_mul, le_refl]
      · simp only [Rat.cast_zero, mul_zero, le_refl]
    · refine mul_nonneg (sub_nonneg.2 ?_) (Rat.cast_nonneg.2 hq)
      simp only [side, if_neg hu]
      split
      · exact zero_le_one
      · exact le_rfl
  linarith

/-! ## Distances as potentials -/

namespace Digraph

variable {g : Digraph} {cost : Nat × Nat → ℚ} {s t : Nat} {bound : ℚ}

/-- A bound, and what the walks to a node cost. -/
def walkCosts (g : Digraph) (cost : Nat × Nat → ℚ) (s : Nat) (bound : ℚ) (v : Nat) : Set ℝ :=
  {c | c = bound ∨ ∃ p, g.Leads s v p ∧ c = costOf cost p}

/-- The distance of a node, at most the bound. -/
noncomputable def potential (g : Digraph) (cost : Nat × Nat → ℚ) (s : Nat) (bound : ℚ) (v : Nat) : ℝ :=
  sInf (g.walkCosts cost s bound v)

theorem zero_le_of_mem_walkCosts (hcost : ∀ a ∈ g.ordered, 0 ≤ cost a) (hbound : 0 ≤ bound)
    {v : Nat} {c : ℝ} (hc : c ∈ g.walkCosts cost s bound v) : 0 ≤ c := by
  rcases hc with rfl | ⟨p, hp, rfl⟩
  · exact Rat.cast_nonneg.2 hbound
  · exact Rat.cast_nonneg.2 (hp.costOf_nonneg hcost)

theorem potential_le (hcost : ∀ a ∈ g.ordered, 0 ≤ cost a) (hbound : 0 ≤ bound) {v : Nat} {c : ℝ}
    (hc : c ∈ g.walkCosts cost s bound v) : g.potential cost s bound v ≤ c :=
  csInf_le ⟨0, fun _ h => zero_le_of_mem_walkCosts hcost hbound h⟩ hc

theorem le_potential {v : Nat} {b : ℝ} (hb : ∀ c ∈ g.walkCosts cost s bound v, b ≤ c) :
    b ≤ g.potential cost s bound v :=
  le_csInf ⟨bound, .inl rfl⟩ hb

theorem potential_start (hcost : ∀ a ∈ g.ordered, 0 ≤ cost a) (hbound : 0 ≤ bound) :
    g.potential cost s bound s = 0 := by
  refine le_antisymm (potential_le hcost hbound (.inr ⟨[s], .refl s, ?_⟩)) ?_
  · rw [costOf_singleton, Rat.cast_zero]
  · exact le_potential fun c hc => zero_le_of_mem_walkCosts hcost hbound hc

theorem potential_end (hcost : ∀ a ∈ g.ordered, 0 ≤ cost a) (hbound : 0 ≤ bound)
    (hmin : ∀ p, g.Leads s t p → bound ≤ costOf cost p) :
    g.potential cost s bound t = bound := by
  refine le_antisymm (potential_le hcost hbound (.inl rfl)) (le_potential fun c hc => ?_)
  rcases hc with rfl | ⟨p, hp, rfl⟩
  · exact le_rfl
  · exact Rat.cast_le.2 (hmin p hp)

/-- Along an arc the potential rises by its cost at most. -/
theorem potential_step (hcost : ∀ a ∈ g.ordered, 0 ≤ cost a) (hbound : 0 ≤ bound)
    {a : Nat × Nat} (ha : a ∈ g.ordered) :
    g.potential cost s bound a.2 - g.potential cost s bound a.1 ≤ cost a := by
  rw [sub_le_comm]
  refine le_potential fun c hc => ?_
  rw [sub_le_iff_le_add]
  have ha0 : (0 : ℝ) ≤ cost a := Rat.cast_nonneg.2 (hcost a ha)
  rcases hc with rfl | ⟨p, hp, rfl⟩
  · have hle := potential_le (s := s) (v := a.2) hcost hbound (.inl rfl)
    linarith
  · have hstep : a.2 ∈ g.successors a.1 := mem_ordered.1 ha
    have hle := potential_le hcost hbound (.inr ⟨_, hp.snoc hstep, rfl⟩)
    rw [costOf_snoc cost hp hstep] at hle
    push_cast at hle
    exact hle

/-- A flow of one unit costs at least what all walks cost at least. -/
theorem le_total_of_balance (hg : g.Proper) (hs : s < g.size) (ht : t < g.size)
    (hcost : ∀ a ∈ g.ordered, 0 ≤ cost a) (hbound : 0 ≤ bound)
    (hmin : ∀ p, g.Leads s t p → bound ≤ costOf cost p) {y : List ℚ} (hy : ∀ q ∈ y, 0 ≤ q)
    (hbalance : ∀ v < g.size, balance g.ordered y v = unitSupply s t v) :
    bound ≤ total g.ordered y cost := by
  have harcs : ∀ a ∈ g.ordered, a.1 < g.size ∧ a.2 < g.size := fun a ha =>
    ⟨lt_size_of_mem (mem_ordered.1 ha), hg.lt_size_of_mem (mem_ordered.1 ha)⟩
  have hle := sum_le_cast_total hy fun a ha => potential_step (s := s) hcost hbound ha
  have hdrops := sum_drops_of_balance (fun v => -g.potential cost s bound v) harcs hs ht hbalance
  have hreal : (bound : ℝ) ≤ (total g.ordered y cost : ℝ) := by
    simp only [neg_sub_neg, potential_end hcost hbound hmin, potential_start hcost hbound,
      sub_zero] at hdrops
    rwa [hdrops] at hle
  exact Rat.cast_le.1 hreal

end Digraph
end Bilevel
