import Bilevel.Proofs.Construction
import Bilevel.Proofs.Double.Nearest
import Bilevel.Proofs.Origin
import Bilevel.Sampling.Dense

/-!
# Bilevel.Proofs.Sampling.Draws

What can be drawn for a dense program, and that it always makes one.

* `Drawn` lists what the coefficients can be, whatever the source of random numbers is: integers of
  certain ranges, in arrays of the right shapes. `drawn_arguments` says that every generator draws
  such coefficients.
* `consistent_of_drawn`: what can be drawn fits together.
* `exists_build_of_drawn`: so it makes a program, of the sizes that were asked for. Its coefficients are
  finite, and its right-hand sides are not below zero.
-/

namespace Bilevel
namespace Sampling

/-- A row of `n` integers from `low` to `high`, exclusive. -/
def IsDrawnRow {α : Type} (n : Nat) (low high : Int) (d : Datum α) : Prop :=
  ∃ ks : List Int, d = .list (ks.map .int) ∧ ks.length = n ∧ ∀ k ∈ ks, low ≤ k ∧ k < high

/-- A table of integers from `low` to `high`, exclusive. -/
def IsDrawnTable {α : Type} (rows columns : Nat) (low high : Int) (d : Datum α) : Prop :=
  ∃ ds : List (Datum α), d = .list ds ∧ ds.length = rows ∧ ∀ e ∈ ds, IsDrawnRow columns low high e

namespace DenseRequest

/-- Coefficients that can be drawn for a program of given sizes. -/
structure Drawn {α : Type} (s : Sizes) (bilinear : Bool) (a : Arguments α) : Prop where
  cx : IsDrawnRow s.nu (-10) 11 a.cx
  cy : IsDrawnRow s.nl (-10) 11 a.cy
  G : IsDrawnTable s.mu s.nu (-5) 6 a.G
  H : IsDrawnTable s.mu s.nl (-5) 6 a.H
  q : IsDrawnRow s.mu 1 21 a.q
  d : IsDrawnRow s.nl (-10) 11 a.d
  A : IsDrawnTable s.ml s.nu (-5) 6 a.A
  B : IsDrawnTable s.ml s.nl (-5) 6 a.B
  b : IsDrawnRow s.ml 1 21 a.b
  F : if bilinear then IsDrawnTable s.nu s.nl (-3) 4 a.F else a.F = .null
  Jx : a.Jx = .upTo s.nInt

end DenseRequest

/-! ## Drawing -/

section Drawing

variable {α σ : Type}

namespace DenseRequest

theorem isDrawnRow_row (g : Generator σ) {low high : Int} (h : low < high) (n : Nat) (s : σ) :
    IsDrawnRow n low high (row (α := α) g n low high s).1 :=
  ⟨(many n (g.between low high) s).1, rfl, length_many n _ s, forall_mem_many (g.between_mem h) n s⟩

theorem isDrawnTable_table (g : Generator σ) {low high : Int} (h : low < high) (rows columns : Nat)
    (s : σ) : IsDrawnTable rows columns low high (table (α := α) g rows columns low high s).1 :=
  ⟨(many rows (row g columns low high) s).1, rfl, length_many rows _ s,
    forall_mem_many (isDrawnRow_row g h columns) rows s⟩

/-- Whatever a generator draws can be drawn. -/
theorem drawn_arguments (g : Generator σ) (s : Sizes) (bilinear : Bool) (state : σ) :
    Drawn s bilinear (arguments (α := α) g s bilinear state).1 := by
  -- the quadratic term is drawn last, so that the others are the same with and without it
  cases bilinear <;> refine {
    cx := isDrawnRow_row g (by decide) _ _
    cy := isDrawnRow_row g (by decide) _ _
    G := isDrawnTable_table g (by decide) _ _ _
    H := isDrawnTable_table g (by decide) _ _ _
    q := isDrawnRow_row g (by decide) _ _
    d := isDrawnRow_row g (by decide) _ _
    A := isDrawnTable_table g (by decide) _ _ _
    B := isDrawnTable_table g (by decide) _ _ _
    b := isDrawnRow_row g (by decide) _ _
    F := ?_
    Jx := rfl }
  · rfl
  · exact isDrawnTable_table g (by decide) _ _ _

end DenseRequest

end Drawing

/-! ## Shapes -/

/-- All numbers in the value are integers from `low` to `high`, exclusive. -/
def ConsistsOf {α : Type} (low high : Int) (d : Datum α) : Prop :=
  ∀ e ∈ d.leaves, ∃ k, e = .int k ∧ low ≤ k ∧ k < high

section Shapes

variable {α : Type} {n rows columns : Nat} {low high : Int} {d : Datum α}

theorem IsDrawnRow.consistsOf (h : IsDrawnRow n low high d) : ConsistsOf low high d := by
  obtain ⟨ks, rfl, -, hks⟩ := h
  intro e he
  rw [Datum.leaves, Datum.leavesOf_eq_flatMap, List.flatMap_map] at he
  obtain ⟨k, hk, he⟩ := List.mem_flatMap.1 he
  exact ⟨k, List.mem_singleton.1 he, hks k hk⟩

theorem IsDrawnTable.consistsOf (h : IsDrawnTable rows columns low high d) :
    ConsistsOf low high d := by
  obtain ⟨ds, rfl, -, hds⟩ := h
  intro e he
  rw [Datum.leaves, Datum.leavesOf_eq_flatMap] at he
  obtain ⟨row, hrow, he⟩ := List.mem_flatMap.1 he
  exact (hds row hrow).consistsOf e he

theorem IsDrawnRow.shape? (h : IsDrawnRow n low high d) : d.shape? = some [n] := by
  obtain ⟨ks, rfl, rfl, -⟩ := h
  have hs : ∀ e ∈ ks.map (Datum.int (α := α)), e.shape? = some [] := by
    intro e he
    obtain ⟨k, -, rfl⟩ := List.mem_map.1 he
    rfl
  rw [Datum.shape?_list hs, List.length_map]
  cases ks <;> rfl

theorem IsDrawnTable.shape? (h : IsDrawnTable rows columns low high d) :
    d.shape? = some (if rows = 0 then [0] else [rows, columns]) := by
  obtain ⟨ds, rfl, rfl, hds⟩ := h
  rw [Datum.shape?_list fun e he => (hds e he).shape?]
  simp only [List.length_eq_zero_iff]

end Shapes

/-! ## Numbers -/

section Numbers

variable {n rows columns : Nat} {low high : Int} {d : Datum Float}

theorem ConsistsOf.exists_toScalar (h : ConsistsOf low high d) (hlow : -2 ^ 53 ≤ low)
    (hhigh : high ≤ 2 ^ 53) : ∀ e ∈ d.leaves, ∃ v, e.toScalar = .ok v ∧ (Faithful.exact v).IsFinite ∧
      (0 ≤ low → Scalar.le Scalar.zero v = true) := by
  intro e he
  obtain ⟨k, rfl, hk⟩ := h e he
  obtain ⟨v, hv, hfin, hsign⟩ := Double.exists_ofInt? (k := k) (by omega)
  refine ⟨v, ?_, hfin, fun h0 => hsign (h0.trans hk.1)⟩
  rw [Datum.toScalar, hv]

/-- The numbers in the value are finite, and none is below zero if no integer is. -/
theorem ConsistsOf.of_contains (h : ConsistsOf low high d) (hlow : -2 ^ 53 ≤ low)
    (hhigh : high ≤ 2 ^ 53) {v : Float} (hv : d.Contains v) :
    (Faithful.exact v).IsFinite ∧ (0 ≤ low → Scalar.le Scalar.zero v = true) := by
  obtain ⟨e, he, hv⟩ := hv
  obtain ⟨w, hw, hnumber⟩ := h.exists_toScalar hlow hhigh e he
  rw [hv] at hw
  cases hw
  exact hnumber

theorem IsDrawnRow.isRow (h : IsDrawnRow n low high d) (hlow : -2 ^ 53 ≤ low)
    (hhigh : high ≤ 2 ^ 53) : d.IsRow n := by
  refine Datum.exists_toTensor h.shape? (show 1 ≤ Datum.maxDims by decide) fun e he => ?_
  obtain ⟨v, hv, -⟩ := h.consistsOf.exists_toScalar hlow hhigh e he
  exact ⟨v, hv⟩

theorem IsDrawnTable.isMatrix (h : IsDrawnTable rows columns low high d) (hlow : -2 ^ 53 ≤ low)
    (hhigh : high ≤ 2 ^ 53) : d.IsMatrix rows columns := by
  have hdims : (if rows = 0 then [0] else [rows, columns]).length ≤ Datum.maxDims := by
    split
    · exact (show 1 ≤ Datum.maxDims by decide)
    · exact (show 2 ≤ Datum.maxDims by decide)
  obtain ⟨t, ht, hs⟩ := Datum.exists_toTensor h.shape? hdims fun e he => by
    obtain ⟨v, hv, -⟩ := h.consistsOf.exists_toScalar hlow hhigh e he
    exact ⟨v, hv⟩
  refine ⟨t, ht, ?_⟩
  by_cases hrows : rows = 0
  · rw [if_pos hrows] at hs
    exact .inr ⟨hs, hrows⟩
  · rw [if_neg hrows] at hs
    exact .inl hs

end Numbers

namespace DenseRequest

open Program

variable {s : Sizes} {bilinear : Bool} {a : Arguments Float}

section Rows

variable {k nu nl : Nat} {left right rhs : Datum Float} (hleft : IsDrawnTable k nu (-5) 6 left)
  (hright : IsDrawnTable k nl (-5) 6 right) (hrhs : IsDrawnRow k 1 21 rhs)

include hleft hright hrhs

theorem rowsFit_of_drawn : Arguments.RowsFit nu nl left right rhs :=
  ⟨k, hrhs.isRow (by decide) (by decide), hleft.isMatrix (by decide) (by decide),
    hright.isMatrix (by decide) (by decide)⟩

/-- The right-hand sides are at least one. -/
theorem rowsAdmitOrigin_of_drawn {m n : Rows Float} {r : Row Float}
    (h : (∀ row ∈ m, ∀ v ∈ row, left.Contains v) ∧ (∀ row ∈ n, ∀ v ∈ row, right.Contains v) ∧
      ∀ v ∈ r, rhs.Contains v) : RowsAdmitOrigin m n r where
  left row hrow v hv :=
    (hleft.consistsOf.of_contains (by decide) (by decide) (h.1 row hrow v hv)).1
  right row hrow v hv :=
    (hright.consistsOf.of_contains (by decide) (by decide) (h.2.1 row hrow v hv)).1
  rhs c hc := (hrhs.consistsOf.of_contains (by decide) (by decide) (h.2.2 c hc)).2 (by decide)

end Rows

/-- What can be drawn fits together. -/
theorem consistent_of_drawn (h : Drawn s bilinear a) : ∀ g, a.Consistent g := by
  have hx := h.cx.isRow (by decide) (by decide)
  have hy := h.cy.isRow (by decide) (by decide)
  intro g
  cases g with
  | objectives => exact ⟨s.nu, s.nl, hx, hy, h.d.isRow (by decide) (by decide)⟩
  | lowerConstraints =>
    rw [Arguments.Consistent, Datum.rowLength_of_isRow hx, Datum.rowLength_of_isRow hy]
    exact rowsFit_of_drawn h.A h.B h.b
  | upperConstraints =>
    rw [Arguments.Consistent, Datum.rowLength_of_isRow hx, Datum.rowLength_of_isRow hy]
    exact rowsFit_of_drawn h.G h.H h.q
  | quadraticTerm =>
    rw [Arguments.Consistent, Datum.rowLength_of_isRow hx, Datum.rowLength_of_isRow hy]
    have hF := h.F
    cases bilinear with
    | false => exact .inl hF
    | true => exact .inr (IsDrawnTable.isMatrix hF (by decide) (by decide))

/-- The indices of the first variables. -/
def indices (n : Int) : List Int :=
  (List.range n.toNat).map fun i => ((i + 1 : Nat) : Int)

theorem mem_indices {n j : Int} : j ∈ indices n ↔ 1 ≤ j ∧ j ≤ n := by
  rw [indices, List.mem_map]
  constructor
  · rintro ⟨i, hi, rfl⟩
    rw [List.mem_range] at hi
    omega
  · intro hj
    exact ⟨(j - 1).toNat, List.mem_range.2 (by omega), by omega⟩

/-- What can be drawn makes a program of the sizes that are asked for. -/
theorem exists_build_of_drawn (h : Drawn s bilinear a) :
    ∃ p : Program Float, build a = .ok p ∧ p.nu = s.nu ∧ p.nl = s.nl ∧
      p.Jx = (indices s.nInt).map .int ∧ p.Boxed fun _ => Scalar.infinity := by
  obtain ⟨p, hp, -, hxBox, hyBox⟩ := build_of_iterable (consistent_of_drawn h) (by
    rw [h.Jx]
    exact .inr trivial)
  obtain ⟨hupper, hlower, hJx⟩ := contains_of_build hp
  obtain ⟨hnu, hnl⟩ := sizes_of_build hp (h.cx.isRow (by decide) (by decide))
    (h.cy.isRow (by decide) (by decide))
  rw [h.Jx] at hJx
  have hitems : p.Jx = (indices s.nInt).map .int := by
    rw [indices, List.map_map]
    exact (Except.ok.inj hJx).symm
  refine ⟨p, hp, hnu, hnl, hitems, rowsAdmitOrigin_of_drawn h.G h.H h.q hupper,
    rowsAdmitOrigin_of_drawn h.A h.B h.b hlower, ?_⟩
  intro l
  cases l with
  | lower => exact hyBox
  | upper => exact hxBox

end DenseRequest
end Sampling
end Bilevel
