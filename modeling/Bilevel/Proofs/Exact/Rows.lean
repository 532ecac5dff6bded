import Bilevel.Linear.Rows
import Bilevel.Proofs.Exact.Scalar
import Mathlib.Algebra.BigOperators.Group.List.Basic
import Mathlib.Data.List.GetD

/-!
# Bilevel.Proofs.Exact.Rows

Rows and matrices of rational numbers.

* `rational` reads a row of exact numbers, and `product` multiplies two rows of rationals.
* `dot_finite`, `apply_finite`, `combine_finite`: over rational numbers the products of rows and
  matrices are sums of products. That single numbers and single rows are multiplied in another way
  makes no difference.
-/

namespace Bilevel
namespace Linear

open Extended

/-- The rational numbers of a row. -/
def rational (r : Row Extended) : List ℚ := r.map toRat

/-- The sum of the products of two rows. -/
def product (a x : List ℚ) : ℚ := (a.zipWith (· * ·) x).sum

theorem map_finite_rational {r : Row Extended} (h : ∀ a ∈ r, a.IsFinite) :
    (rational r).map finite = r := by
  unfold rational
  rw [List.map_map]
  conv => rhs; rw [← List.map_id r]
  exact List.map_congr_left fun a ha => (h a ha).finite_toRat

theorem rational_map_finite (xs : List ℚ) : rational (xs.map finite) = xs := by
  unfold rational
  rw [List.map_map]
  exact List.map_id xs

theorem foldl_add_finite (xs : List ℚ) (s : ℚ) :
    (xs.map finite).foldl Scalar.add (finite s) = finite (s + xs.sum) := by
  induction xs generalizing s with
  | nil => rw [List.sum_nil, add_zero]; rfl
  | cons x xs ih =>
    rw [List.map_cons, List.foldl_cons, add_finite, ih, List.sum_cons, add_assoc]

theorem sum_finite (xs : List ℚ) : sum (xs.map finite) = finite xs.sum := by
  match xs with
  | [] => rfl
  | [x] => rw [List.sum_singleton]; rfl
  | x :: y :: xs =>
    have h := foldl_add_finite (x :: y :: xs) 0
    rw [zero_add] at h
    exact h

theorem dot_finite (a x : List ℚ) :
    dot (a.map finite) (x.map finite) = finite (product a x) := by
  have h : (a.map finite).zipWith Scalar.mul (x.map finite) =
      (a.zipWith (· * ·) x).map finite := by
    rw [List.zipWith_map, List.map_zipWith]
    rfl
  rw [dot, h, sum_finite]
  rfl

theorem scaled_finite (w : ℚ) (as : List ℚ) :
    scaled (finite w) (as.map finite) = (as.map (w * ·)).map finite := by
  match as with
  | [] => rfl
  | [a] => rfl
  | a :: b :: as =>
    have h : ∀ c : ℚ, (if Scalar.eq (finite w) Scalar.zero then Scalar.zero
        else Scalar.add Scalar.zero (Scalar.mul (finite w) (finite c))) = finite (w * c) := by
      intro c
      rw [zero_eq]
      by_cases hw : w = 0
      · rw [if_pos ((eq_finite_iff w 0).2 hw), hw, zero_mul]
      · rw [if_neg fun he => hw ((eq_finite_iff w 0).1 he), mul_finite, add_finite, zero_add]
    show ((a :: b :: as).map finite).map (fun c => if Scalar.eq (finite w) Scalar.zero
      then Scalar.zero else Scalar.add Scalar.zero (Scalar.mul (finite w) c)) = _
    rw [List.map_map, List.map_map]
    exact List.map_congr_left fun c _ => h c

theorem product_singleton (a w : ℚ) : product [a] [w] = a * w := by
  simp [product]

/-- A matrix of rational rows times a rational row. -/
theorem apply_finite (m : List (List ℚ)) (x : List ℚ) (h : ∀ r ∈ m, r.length = x.length) :
    apply (m.map (·.map finite)) (x.map finite) = (m.map (product · x)).map finite := by
  match x with
  | [] =>
    rw [apply, List.map_map, List.map_map]
    · exact List.map_congr_left fun r _ => dot_finite r []
    · intro w hw
      cases hw
  | [w] =>
    have hcol : column (m.map (·.map finite)) 0 = (m.map (·.getD 0 0)).map finite := by
      rw [column, List.map_map, List.map_map]
      refine List.map_congr_left fun r hr => ?_
      obtain ⟨a, rfl⟩ := List.length_eq_one_iff.1 (h r hr)
      rfl
    show scaled (finite w) (column _ 0) = _
    rw [hcol, scaled_finite]
    congr 1
    rw [List.map_map]
    refine List.map_congr_left fun r hr => ?_
    obtain ⟨a, rfl⟩ := List.length_eq_one_iff.1 (h r hr)
    rw [product_singleton, mul_comm]
    rfl
  | w :: v :: x =>
    show (m.map (·.map finite)).map (fun row => dot row ((w :: v :: x).map finite)) = _
    rw [List.map_map, List.map_map]
    exact List.map_congr_left fun r _ => dot_finite r _

/-- The sum of rational rows, each times its weight, entry by entry. -/
def combination (width : Nat) (w : List ℚ) (m : List (List ℚ)) : List ℚ :=
  (List.range width).map fun j => ((w.zip m).map fun (a, row) => a * row.getD j 0).sum

theorem foldl_combine_finite (pairs : List (ℚ × List ℚ)) (width : Nat) (sums : Nat → ℚ)
    (h : ∀ p ∈ pairs, p.2.length = width) :
    (pairs.map fun p => (finite p.1, p.2.map finite)).foldl
      (fun sums (a, row) => (sums.zip row).map fun (s, b) => Scalar.add s (Scalar.mul a b))
      (((List.range width).map sums).map finite) =
    ((List.range width).map fun j =>
      sums j + (pairs.map fun (a, row) => a * row.getD j 0).sum).map finite := by
  induction pairs generalizing sums with
  | nil =>
    simp only [List.map_nil, List.foldl_nil, List.sum_nil, add_zero]
  | cons p pairs ih =>
    obtain ⟨a, row⟩ := p
    have hlen : row.length = width := h (a, row) List.mem_cons_self
    have hstep : ((((List.range width).map sums).map finite).zip (row.map finite)).map
        (fun (s, b) => Scalar.add s (Scalar.mul (finite a) b)) =
        ((List.range width).map fun j => sums j + a * row.getD j 0).map finite := by
      refine List.ext_getElem (by simp [hlen]) fun j h1 h2 => ?_
      have hj : j < row.length := by
        simp only [List.length_map, List.length_range] at h2
        omega
      simp only [List.getElem_map, List.getElem_zip, List.getElem_range, mul_finite, add_finite,
        List.getD_eq_getElem _ _ hj]
    rw [List.map_cons, List.foldl_cons]
    simp only
    rw [hstep, ih _ fun p hp => h p (List.mem_cons_of_mem _ hp)]
    simp only [List.map_cons, List.sum_cons, add_assoc]

theorem map_range_zero (width : Nat) :
    ((List.range width).map fun _ => (0 : ℚ)).map finite = List.replicate width Scalar.zero := by
  rw [List.map_map]
  exact List.eq_replicate_iff.2 ⟨by simp, by simp [zero_eq]⟩

theorem foldl_combination (width : Nat) (w : List ℚ) (m : List (List ℚ))
    (h : ∀ row ∈ m, row.length = width) :
    ((w.map finite).zip (m.map (·.map finite))).foldl
      (fun sums (a, row) => (sums.zip row).map fun (s, b) => Scalar.add s (Scalar.mul a b))
      (List.replicate width Scalar.zero) = (combination width w m).map finite := by
  have hfold := foldl_combine_finite (w.zip m) width (fun _ => 0) fun p hp =>
    h p.2 (List.of_mem_zip (show (p.1, p.2) ∈ w.zip m from hp)).2
  simp only [zero_add] at hfold
  rw [← map_range_zero, List.zip_map]
  exact hfold

/-- The rows of a rational matrix, added up with rational weights. -/
theorem combine_finite (width : Nat) (w : List ℚ) (m : List (List ℚ))
    (h : ∀ row ∈ m, row.length = width) :
    combine width (w.map finite) (m.map (·.map finite)) = (combination width w m).map finite := by
  match w, m, h with
  | [a], [row], h =>
    have hrow : row.length = width := h row List.mem_cons_self
    show scaled (finite a) (row.map finite) = _
    rw [scaled_finite]
    congr 1
    refine List.ext_getElem (by simp [combination, hrow]) fun j h1 h2 => ?_
    have hj : j < row.length := by
      rw [List.length_map] at h1
      exact h1
    simp [combination, hj]
  | [], m, h => exact foldl_combination width [] m h
  | [a], [], h => exact foldl_combination width [a] [] h
  | [a], row :: row' :: m, h => exact foldl_combination width [a] (row :: row' :: m) h
  | a :: a' :: w, m, h => exact foldl_combination width (a :: a' :: w) m h

end Linear
end Bilevel
