import Bilevel.Proofs.Exact.Scalar

/-!
# Bilevel.Proofs.Exact.Faithful

Kinds of numbers that are read exactly and computed with by rounding exact results.

* `Faithful` says how: the order and signs are those of the exact numbers, and a sum, a difference or
  a product is the exact one, rounded. Rounding keeps the order, zero, what is not finite and what is
  a number already.
* Exact numbers are faithful without any rounding.
* `sub_le_sub_left`: differences from a finite number keep the order, also with infinities.
* `isFinite_of_between`: a number that is inside its bounds up to a tolerance is finite, whatever the
  bounds are, unless the tolerance is infinity.
-/

namespace Bilevel

/-- The numbers mean exact numbers, and arithmetic is exact arithmetic with rounded results. -/
class Faithful (α : Type) [Scalar α] where
  exact : α → Extended
  round : Extended → Extended
  round_zero : round (.finite 0) = .finite 0
  round_infinite (negative : Bool) : round (.infinite negative) = .infinite negative
  round_undefined : round .undefined = .undefined
  round_exact (a : α) : round (exact a) = exact a
  round_le_round {v w : Extended} : Scalar.le v w = true → Scalar.le (round v) (round w) = true
  exact_zero : exact Scalar.zero = .finite 0
  le_eq (a b : α) : Scalar.le a b = Scalar.le (exact a) (exact b)
  exact_neg (a : α) : exact (Scalar.neg a) = Scalar.neg (exact a)
  exact_add (a b : α) : exact (Scalar.add a b) = round (Scalar.add (exact a) (exact b))
  exact_sub (a b : α) : exact (Scalar.sub a b) = round (Scalar.sub (exact a) (exact b))
  exact_mul (a b : α) : exact (Scalar.mul a b) = round (Scalar.mul (exact a) (exact b))
  /-- Finite numbers have a nearest integer, and it is not too large to be a number. -/
  exists_distance? {a : α} : (exact a).IsFinite → ∃ far, Scalar.distance? a = some far

instance : Faithful Extended where
  exact := id
  round := id
  round_zero := rfl
  round_infinite _ := rfl
  round_undefined := rfl
  round_exact _ := rfl
  round_le_round := id
  exact_zero := rfl
  le_eq _ _ := rfl
  exact_neg _ := rfl
  exact_add _ _ := rfl
  exact_sub _ _ := rfl
  exact_mul _ _ := rfl
  exists_distance? := fun ⟨q, hq⟩ => ⟨_, by rw [← Extended.distance?_finite q, ← hq]; rfl⟩

namespace Faithful

open Extended

variable {α : Type} [Scalar α] [Faithful α] {a b c e : α}

/-! ## Order -/

theorem le_trans (hab : Scalar.le a b = true) (hbc : Scalar.le b c = true) :
    Scalar.le a c = true := by
  rw [le_eq] at hab hbc ⊢
  exact Extended.le_trans hab hbc

theorem neg_le_neg_of_le (h : Scalar.le a b = true) :
    Scalar.le (Scalar.neg b) (Scalar.neg a) = true := by
  rw [le_eq] at h ⊢
  rw [exact_neg, exact_neg]
  exact Extended.neg_le_neg_of_le h

theorem lt_of_le_of_lt (hab : Scalar.le a b = true) (hbc : Scalar.lt b c = true) :
    Scalar.lt a c = true := by
  unfold Scalar.lt at hbc ⊢
  rw [Bool.and_eq_true, Bool.not_eq_true', ← Bool.not_eq_true] at hbc ⊢
  exact ⟨le_trans hab hbc.1, fun hca => hbc.2 (le_trans hca hab)⟩

/-! ## Differences -/

theorem sub_le_sub_left (ha : (exact a).IsFinite) (h : Scalar.le b c = true) :
    Scalar.le (Scalar.sub a c) (Scalar.sub a b) = true := by
  obtain ⟨q, hq⟩ := ha
  rw [le_eq] at h ⊢
  rw [exact_sub, exact_sub, hq]
  exact round_le_round (finite_sub_le_finite_sub q h)

theorem exact_infinite_sub {negative : Bool} (h : exact a = .infinite negative) (b : α) :
    exact (Scalar.sub a b) = .infinite negative ∨ exact (Scalar.sub a b) = .undefined := by
  rw [exact_sub, h]
  rcases infinite_sub negative (exact b) with h | h
  · rw [h, round_infinite]
    exact .inl rfl
  · rw [h, round_undefined]
    exact .inr rfl

/-- Nothing infinite is below a bound by less than a tolerance that is not infinity. -/
theorem isFinite_of_between {low high : α} (he : exact e ≠ .infinite false)
    (hlow : Scalar.le (Scalar.neg e) (Scalar.sub a low) = true)
    (hhigh : Scalar.le (Scalar.sub a high) e = true) : (exact a).IsFinite := by
  rw [le_eq] at hlow hhigh
  rw [exact_neg] at hlow
  cases ha : exact a with
  | finite q => exact ⟨q, rfl⟩
  | undefined =>
    have hsub : Scalar.sub .undefined (exact high) = Extended.undefined := rfl
    rw [exact_sub, ha, hsub, round_undefined] at hhigh
    cases hhigh
  | infinite negative =>
    exfalso
    cases negative with
    | false =>
      rcases exact_infinite_sub ha high with hsub | hsub
      · rw [hsub] at hhigh
        exact he (infinite_le_iff.1 hhigh)
      · exact (le_iff.1 hhigh).1 hsub
    | true =>
      rcases exact_infinite_sub ha low with hsub | hsub
      · rw [hsub] at hlow
        exact he (neg_le_infinite_iff.1 hlow)
      · exact (le_iff.1 hlow).2.1 hsub

end Faithful
end Bilevel
