import Bilevel.Proofs.States
import Mathlib.Algebra.BigOperators.Ring.Finset

/-!
# Bilevel.Proofs.Objectives

The objectives over exact numbers.

* `HasObjectives` names the rational coefficients of both objectives.
* `upperValue_eq_sum`, `lowerValue_eq_sum`: two nested products of rows are a sum over all pairs of
  variables.
* `cost_mix_left`, `cost_mix_right`: the follower's costs are affine in each player's variables.
* `objective_eq_sums`: the objectives of any point, with the points that are refused.
-/

namespace Bilevel

open Extended Linear

/-! ## Rows by their entries -/

theorem Linear.eq_map_range {xs : List ℚ} {n : Nat} (h : xs.length = n) :
    xs = (List.range n).map fun j => xs.getD j 0 := by
  refine List.ext_getElem (by simp [h]) fun j hj _ => ?_
  rw [List.getElem_map, List.getElem_range, List.getD_eq_getElem _ _ hj]

theorem Linear.eq_map_finite {r : Row Extended} {n : Nat} {c : Nat → ℚ} (hlength : r.length = n)
    (h : ∀ j < n, r[j]? = some (finite (c j))) : r = ((List.range n).map c).map finite := by
  refine List.ext_getElem (by simp [hlength]) fun j hj _ => ?_
  have hentry := h j (hlength ▸ hj)
  rw [List.getElem?_eq_getElem hj, Option.some.injEq] at hentry
  simp [hentry]

theorem Linear.product_map_range (n : Nat) (c x : Nat → ℚ) :
    product ((List.range n).map c) ((List.range n).map x) = ∑ j ∈ Finset.range n, c j * x j := by
  rw [product, List.zipWith_map, List.zipWith_self]
  rfl

/-- The entries of a combination of rows are sums down the columns. -/
theorem Linear.combination_map_range (n m : Nat) (x : Nat → ℚ) (F : Nat → Nat → ℚ) :
    combination m ((List.range n).map x) ((List.range n).map fun i => (List.range m).map (F i)) =
      (List.range m).map fun j => ∑ i ∈ Finset.range n, x i * F i j := by
  refine List.map_congr_left fun j hj => ?_
  have hentry : ∀ i, ((List.range m).map (F i)).getD j 0 = F i j := by
    intro i
    rw [List.getD_eq_getElem _ _ (by simpa using hj), List.getElem_map, List.getElem_range]
  rw [List.zip_map', List.map_map]
  simp only [Function.comp_def, hentry]
  rfl

namespace Program

/-- The rational coefficients of both objectives. -/
structure HasObjectives (p : Program Extended) (cx cy d : Nat → ℚ) (F : Nat → Nat → ℚ) :
    Prop where
  cx_eq : ∀ j < p.nu, p.cx[j]? = some (finite (cx j))
  cy_eq : ∀ j < p.nl, p.cy[j]? = some (finite (cy j))
  d_eq : ∀ j < p.nl, p.d[j]? = some (finite (d j))
  F_eq : ∀ i < p.nu, ∀ j < p.nl, ∃ row, p.F[i]? = some row ∧ row[j]? = some (finite (F i j))

variable {p : Program Extended} {cx cy d : Nat → ℚ} {F : Nat → Nat → ℚ} {x y : Datum Extended}
  {xs ys : List ℚ}

theorem HasObjectives.F_eq_map (hc : p.HasObjectives cx cy d F) (hp : p.Shaped) :
    p.F = ((List.range p.nu).map fun i => (List.range p.nl).map (F i)).map (·.map finite) := by
  have hlength := hp.F_shape.length_eq
  refine List.ext_getElem (by simp [hlength]) fun i hi _ => ?_
  have hrow := eq_map_finite (r := p.F[i]) (c := F i)
    (hp.F_shape.row_length _ (List.getElem_mem hi)) fun j hj => by
      obtain ⟨row, hrow, hentry⟩ := hc.F_eq i (hlength ▸ hi) j hj
      rw [List.getElem?_eq_getElem hi, Option.some.injEq] at hrow
      rw [hrow, hentry]
  simp [hrow]

theorem upperValue_eq_sum (hc : p.HasObjectives cx cy d F) (hnu : xs.length = p.nu)
    (hnl : ys.length = p.nl) :
    p.upperValue (xs.map finite) (ys.map finite) =
      finite ((∑ j ∈ Finset.range p.nu, cx j * xs.getD j 0) +
        ∑ j ∈ Finset.range p.nl, cy j * ys.getD j 0) := by
  have hcx : p.cx = ((List.range p.nu).map cx).map finite := eq_map_finite rfl hc.cx_eq
  have hcy : p.cy = ((List.range p.nl).map cy).map finite := eq_map_finite rfl hc.cy_eq
  rw [upperValue, hcx, hcy, dot_finite, dot_finite, add_finite]
  conv_lhs => rw [eq_map_range hnu, eq_map_range hnl]
  rw [product_map_range, product_map_range]

/-- The sum over the columns is drawn out of the sum over the rows. -/
theorem lowerValue_eq_sum (hp : p.Shaped) (hc : p.HasObjectives cx cy d F)
    (hnu : xs.length = p.nu) (hnl : ys.length = p.nl) :
    p.lowerValue (xs.map finite) (ys.map finite) =
      finite ((∑ j ∈ Finset.range p.nl, d j * ys.getD j 0) +
        ∑ i ∈ Finset.range p.nu, ∑ j ∈ Finset.range p.nl,
          xs.getD i 0 * F i j * ys.getD j 0) := by
  have hrows : ∀ row ∈ (List.range p.nu).map fun i => (List.range p.nl).map (F i),
      row.length = p.nl := by
    intro row hrow
    obtain ⟨i, -, rfl⟩ := List.mem_map.1 hrow
    rw [List.length_map, List.length_range]
  rw [lowerValue, eq_map_finite hp.d_length hc.d_eq, hc.F_eq_map hp, combine_finite _ _ _ hrows,
    dot_finite, dot_finite, add_finite]
  conv_lhs => rw [eq_map_range hnu, eq_map_range hnl]
  rw [combination_map_range, product_map_range, product_map_range, Finset.sum_comm]
  simp only [Finset.sum_mul]

/-! ## Mixtures of points -/

/-- The point that divides the way between two others in the ratio of `1 - a` to `a`. -/
def mix (a : ℚ) (xs xs' : List ℚ) : List ℚ :=
  xs.zipWith (fun s t => a * s + (1 - a) * t) xs'

theorem length_mix {a : ℚ} {xs xs' : List ℚ} {n : Nat} (h : xs.length = n) (h' : xs'.length = n) :
    (mix a xs xs').length = n := by
  rw [mix, List.length_zipWith, h, h', min_self]

theorem getD_mix {a : ℚ} {xs xs' : List ℚ} (h : xs.length = xs'.length) (j : Nat) :
    (mix a xs xs').getD j 0 = a * xs.getD j 0 + (1 - a) * xs'.getD j 0 := by
  by_cases hj : j < xs.length
  · have hmix : j < (mix a xs xs').length := by
      rw [length_mix rfl h.symm]
      exact hj
    rw [List.getD_eq_getElem _ _ hmix, List.getD_eq_getElem _ _ hj,
      List.getD_eq_getElem _ _ (h ▸ hj)]
    exact List.getElem_zipWith
  · have hmix : (mix a xs xs').length ≤ j := by
      rw [length_mix rfl h.symm]
      omega
    rw [List.getD_eq_default _ _ hmix, List.getD_eq_default _ _ (by omega),
      List.getD_eq_default _ _ (by omega)]
    ring

/-- What the follower pays: its own costs, and what each pair of variables adds. -/
def cost (n m : Nat) (d : Nat → ℚ) (F : Nat → Nat → ℚ) (x y : Nat → ℚ) : ℚ :=
  (∑ j ∈ Finset.range m, d j * y j) +
    ∑ i ∈ Finset.range n, ∑ j ∈ Finset.range m, x i * F i j * y j

theorem cost_mix_left (n m : Nat) (d : Nat → ℚ) (F : Nat → Nat → ℚ) (a : ℚ) (x x' y : Nat → ℚ) :
    cost n m d F (fun i => a * x i + (1 - a) * x' i) y =
      a * cost n m d F x y + (1 - a) * cost n m d F x' y := by
  have hpairs : ∑ i ∈ Finset.range n, ∑ j ∈ Finset.range m,
        (a * x i + (1 - a) * x' i) * F i j * y j =
      a * (∑ i ∈ Finset.range n, ∑ j ∈ Finset.range m, x i * F i j * y j) +
        (1 - a) * ∑ i ∈ Finset.range n, ∑ j ∈ Finset.range m, x' i * F i j * y j := by
    simp only [Finset.mul_sum, ← Finset.sum_add_distrib]
    refine Finset.sum_congr rfl fun i _ => Finset.sum_congr rfl fun j _ => ?_
    ring
  rw [cost, cost, cost, hpairs]
  ring

theorem cost_mix_right (n m : Nat) (d : Nat → ℚ) (F : Nat → Nat → ℚ) (a : ℚ) (x y y' : Nat → ℚ) :
    cost n m d F x (fun j => a * y j + (1 - a) * y' j) =
      a * cost n m d F x y + (1 - a) * cost n m d F x y' := by
  have hown : ∑ j ∈ Finset.range m, d j * (a * y j + (1 - a) * y' j) =
      a * (∑ j ∈ Finset.range m, d j * y j) + (1 - a) * ∑ j ∈ Finset.range m, d j * y' j := by
    simp only [Finset.mul_sum, ← Finset.sum_add_distrib]
    refine Finset.sum_congr rfl fun j _ => ?_
    ring
  have hpairs : ∑ i ∈ Finset.range n, ∑ j ∈ Finset.range m,
        x i * F i j * (a * y j + (1 - a) * y' j) =
      a * (∑ i ∈ Finset.range n, ∑ j ∈ Finset.range m, x i * F i j * y j) +
        (1 - a) * ∑ i ∈ Finset.range n, ∑ j ∈ Finset.range m, x i * F i j * y' j := by
    simp only [Finset.mul_sum, ← Finset.sum_add_distrib]
    refine Finset.sum_congr rfl fun i _ => Finset.sum_congr rfl fun j _ => ?_
    ring
  rw [cost, cost, cost, hown, hpairs]
  ring

/-! ## The objectives of a point -/

theorem objective_of_sizes (hp : p.Shaped) (hc : p.HasObjectives cx cy d F) (hx : x.Reads xs)
    (hy : y.Reads ys) (hnu : xs.length = p.nu) (hnl : ys.length = p.nl) :
    p.objective .upper x y = .ok (finite ((∑ j ∈ Finset.range p.nu, cx j * xs.getD j 0) +
        ∑ j ∈ Finset.range p.nl, cy j * ys.getD j 0)) ∧
    p.objective .lower x y =
      .ok (finite (cost p.nu p.nl d F (fun i => xs.getD i 0) fun j => ys.getD j 0)) := by
  rw [objective, objective, point_of_reads hx hy hnu hnl, ← upperValue_eq_sum hc hnu hnl, cost,
    ← lowerValue_eq_sum hp hc hnu hnl]
  exact ⟨rfl, rfl⟩

theorem objective_of_wrongSize (hx : x.Reads xs) (hy : y.Reads ys)
    (h : xs.length ≠ p.nu ∨ ys.length ≠ p.nl) (l : Level) :
    p.objective l x y = .error (.wrongSize [xs.length] [ys.length] p.nu p.nl) := by
  rw [objective, point_of_wrongSize hx hy fun ⟨hnu, hnl⟩ => h.elim (· hnu) (· hnl)]
  rfl

/-- **Objectives.** A point is refused exactly if it has the wrong number of coordinates. The leader's
objective of any other point adds up its costs of all variables, the follower's those of its own and
what every pair of variables adds. The follower's objective is affine in each player's variables. -/
theorem objective_eq_sums (hp : p.Reachable) (hc : p.HasObjectives cx cy d F) (hx : x.Reads xs)
    (hy : y.Reads ys) :
    (∀ l f, p.objective l x y = .error f ↔
      (xs.length ≠ p.nu ∨ ys.length ≠ p.nl) ∧
        f = .wrongSize [xs.length] [ys.length] p.nu p.nl) ∧
    (xs.length = p.nu → ys.length = p.nl →
      p.objective .upper x y = .ok (finite ((∑ j ∈ Finset.range p.nu, cx j * xs.getD j 0) +
          ∑ j ∈ Finset.range p.nl, cy j * ys.getD j 0)) ∧
      p.objective .lower x y = .ok (finite ((∑ j ∈ Finset.range p.nl, d j * ys.getD j 0) +
          ∑ i ∈ Finset.range p.nu, ∑ j ∈ Finset.range p.nl,
            xs.getD i 0 * F i j * ys.getD j 0)) ∧
      (∀ (a : ℚ) (x' z : Datum Extended) (xs' : List ℚ), x'.Reads xs' → xs'.length = p.nu →
        z.Reads (mix a xs xs') →
        ∃ v v', p.objective .lower x y = .ok (finite v) ∧
          p.objective .lower x' y = .ok (finite v') ∧
          p.objective .lower z y = .ok (finite (a * v + (1 - a) * v'))) ∧
      (∀ (a : ℚ) (y' z : Datum Extended) (ys' : List ℚ), y'.Reads ys' → ys'.length = p.nl →
        z.Reads (mix a ys ys') →
        ∃ v v', p.objective .lower x y = .ok (finite v) ∧
          p.objective .lower x y' = .ok (finite v') ∧
          p.objective .lower x z = .ok (finite (a * v + (1 - a) * v')))) := by
  have hshape := hp.shaped
  refine ⟨fun l f => ⟨fun hf => ?_, fun hf => ?_⟩, fun hnu hnl => ?_⟩
  · by_cases h : xs.length ≠ p.nu ∨ ys.length ≠ p.nl
    · rw [objective_of_wrongSize hx hy h] at hf
      exact ⟨h, (Except.error.inj hf).symm⟩
    · rw [not_or, not_not, not_not] at h
      obtain ⟨hupper, hlower⟩ := objective_of_sizes hshape hc hx hy h.1 h.2
      cases l with
      | lower => cases hlower.symm.trans hf
      | upper => cases hupper.symm.trans hf
  · rw [objective_of_wrongSize hx hy hf.1, hf.2]
  · obtain ⟨hupper, hlower⟩ := objective_of_sizes hshape hc hx hy hnu hnl
    refine ⟨hupper, hlower, fun a x' z xs' hx' hnu' hz => ?_, fun a y' z ys' hy' hnl' hz => ?_⟩
    · refine ⟨_, _, hlower, (objective_of_sizes hshape hc hx' hy hnu' hnl).2, ?_⟩
      rw [(objective_of_sizes hshape hc hz hy (length_mix hnu hnu') hnl).2, ← cost_mix_left]
      simp only [getD_mix (hnu.trans hnu'.symm)]
    · refine ⟨_, _, hlower, (objective_of_sizes hshape hc hx hy' hnu hnl').2, ?_⟩
      rw [(objective_of_sizes hshape hc hx hz hnu (length_mix hnl hnl')).2, ← cost_mix_right]
      simp only [getD_mix (hnl.trans hnl'.symm)]

/-- Two variables above and one below, whose products with them count differently. -/
def productProgram : Program Extended where
  cx := [finite 1, finite (-2)]
  cy := [finite 3]
  G := []
  H := []
  q := []
  d := [finite 1]
  A := []
  B := []
  b := []
  F := [[finite 2], [finite 5]]
  Jx := []
  xBox := freshBox 2
  yBox := freshBox 1

theorem reachable_productProgram : productProgram.Reachable :=
  .built (a := productProgram.toCoefficients.loose) rfl

theorem objective_productProgram :
    productProgram.objective .lower (.list [.int 1, .int 2]) (.list [.int 3]) =
      .ok (finite 39) ∧
    productProgram.objective .lower (.list [.int 1]) (.list [.int 3]) =
      .error (.wrongSize [1] [1] 2 1) ∧
    ∃ v v',
      productProgram.objective .lower (.list [.int 1, .int 2]) (.list [.int 3]) =
        .ok (finite v) ∧
      productProgram.objective .lower (.list [.int 4, .int 0]) (.list [.int 3]) =
        .ok (finite v') ∧
      productProgram.objective .lower (.list [.int (-2), .int 4]) (.list [.int 3]) =
        .ok (finite (2 * v + (1 - 2) * v')) := by
  have hp := reachable_productProgram
  have hc : productProgram.HasObjectives (fun j => [1, -2].getD j 0) (fun _ => 3) (fun _ => 1)
      (fun i _ => [2, 5].getD i 0) :=
    ⟨by decide +kernel, by decide +kernel, by decide +kernel, fun i hi j hj => by
      have hi' : i < 2 := hi
      have hj' : j < 1 := hj
      interval_cases i <;> interval_cases j <;> exact ⟨_, rfl, rfl⟩⟩
  have hx : Datum.Reads (.list [.int 1, .int 2]) [1, 2] := rfl
  have hshort : Datum.Reads (.list [.int 1]) [1] := rfl
  have hy : Datum.Reads (.list [.int 3]) [3] := rfl
  have hx' : Datum.Reads (.list [.int 4, .int 0]) [4, 0] := rfl
  have hz : Datum.Reads (.list [.int (-2), .int 4]) (mix 2 [1, 2] [4, 0]) := by
    rw [show mix 2 [1, 2] [4, 0] = [-2, 4] by norm_num [mix]]
    rfl
  obtain ⟨-, hvalue⟩ := objective_eq_sums hp hc hx hy
  obtain ⟨hrefused, -⟩ := objective_eq_sums hp hc hshort hy
  obtain ⟨-, hlower, haffine, -⟩ := hvalue rfl rfl
  refine ⟨?_, (hrefused .lower _).2 ⟨.inl (by decide), rfl⟩, haffine 2 _ _ [4, 0] hx' rfl hz⟩
  rw [hlower]
  congr 2
  decide +kernel

end Program
end Bilevel
