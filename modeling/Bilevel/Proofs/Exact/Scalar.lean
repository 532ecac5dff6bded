import Bilevel.Scalar.Extended
import Mathlib.Data.EReal.Operations
import Mathlib.Data.Rat.Floor
import Mathlib.Tactic.Linarith
import Mathlib.Tactic.Ring

/-!
# Bilevel.Proofs.Exact.Scalar

Exact numbers as extended reals.

* `Extended.toEReal` reads exact numbers, `Extended.toRat` the finite ones.
* `le_sub_finite_iff`, `sub_finite_le_iff`: comparing a difference with a tolerance is comparing with
  the bound moved by the tolerance, also where the bound is an infinity.
* `le_iff` reads the order of exact numbers off the extended reals.
* `exists_distance_le_iff`: the distance to the rounded number is at most a tolerance exactly if some
  integer is that near.
-/

namespace Bilevel
namespace Extended

/-- The extended real number; the undefined number has none and is read as zero. -/
noncomputable def toEReal : Extended → EReal
  | finite q => ((q : ℝ) : EReal)
  | infinite true => ⊥
  | infinite false => ⊤
  | undefined => 0

/-- The rational number that a finite number is. -/
def toRat : Extended → ℚ
  | finite q => q
  | _ => 0

def IsFinite (a : Extended) : Prop :=
  ∃ q, a = finite q

instance (a : Extended) : Decidable a.IsFinite :=
  match a with
  | finite q => .isTrue ⟨q, rfl⟩
  | infinite _ => .isFalse fun ⟨_, h⟩ => by cases h
  | undefined => .isFalse fun ⟨_, h⟩ => by cases h

theorem IsFinite.finite_toRat {a : Extended} (h : a.IsFinite) : finite a.toRat = a := by
  obtain ⟨q, rfl⟩ := h
  rfl

theorem IsFinite.neg {a : Extended} (h : a.IsFinite) : IsFinite (Scalar.neg a) := by
  obtain ⟨q, rfl⟩ := h
  exact ⟨-q, rfl⟩

theorem IsFinite.ne_undefined {a : Extended} (h : a.IsFinite) : a ≠ undefined := by
  obtain ⟨q, rfl⟩ := h
  exact fun h => by cases h

theorem coe_le_coe_iff (a b : ℚ) : (((a : ℝ) : EReal) ≤ ((b : ℝ) : EReal)) ↔ a ≤ b := by
  rw [EReal.coe_le_coe_iff, Rat.cast_le]

theorem add_finite (a b : ℚ) : Scalar.add (finite a) (finite b) = finite (a + b) := rfl

theorem mul_finite (a b : ℚ) : Scalar.mul (finite a) (finite b) = finite (a * b) := rfl

theorem sub_finite (a b : ℚ) : Scalar.sub (finite a) (finite b) = finite (a - b) := by
  rw [sub_eq_add_neg]
  rfl

theorem zero_sub_eq (a : Extended) : Scalar.sub (finite 0) a = Scalar.neg a := by
  cases a with
  | finite q =>
    rw [sub_finite, zero_sub]
    rfl
  | infinite s => rfl
  | undefined => rfl

theorem zero_eq : (Scalar.zero : Extended) = finite 0 := rfl

theorem le_finite_iff (a b : ℚ) : Scalar.le (finite a) (finite b) = true ↔ a ≤ b := by
  show decide (a ≤ b) = true ↔ a ≤ b
  exact decide_eq_true_iff

/-! ## Tolerances -/

theorem sub_finite_le_iff (s e : ℚ) {c : Extended} (hc : c ≠ undefined) :
    Scalar.le (Scalar.sub (finite s) c) (finite e) = true ↔
      ((s : ℝ) : EReal) ≤ c.toEReal + ((e : ℝ) : EReal) := by
  cases c with
  | finite q =>
    rw [sub_finite, le_finite_iff, toEReal, ← EReal.coe_add, ← Rat.cast_add, coe_le_coe_iff]
    exact sub_le_iff_le_add'
  | infinite negative =>
    cases negative with
    | true =>
      rw [toEReal, EReal.bot_add, le_bot_iff]
      exact iff_of_false (fun h => by cases h) (EReal.coe_ne_bot _)
    | false =>
      rw [toEReal, EReal.top_add_coe]
      exact iff_of_true rfl le_top
  | undefined => exact absurd rfl hc

theorem le_sub_finite_iff (a e : ℚ) {low : Extended} (h : low ≠ undefined) :
    Scalar.le (Scalar.neg (finite e)) (Scalar.sub (finite a) low) = true ↔
      low.toEReal - ((e : ℝ) : EReal) ≤ ((a : ℝ) : EReal) := by
  cases low with
  | finite q =>
    have hneg : Scalar.neg (finite e) = finite (-e) := rfl
    rw [hneg, sub_finite, le_finite_iff, toEReal, ← EReal.coe_sub, ← Rat.cast_sub, coe_le_coe_iff]
    constructor
    · intro hle
      linarith
    · intro hle
      linarith
  | infinite negative =>
    cases negative with
    | true =>
      rw [toEReal, EReal.bot_sub]
      exact iff_of_true rfl bot_le
    | false =>
      rw [toEReal, EReal.top_sub_coe, top_le_iff]
      exact iff_of_false (fun h => by cases h) (EReal.coe_ne_top _)
  | undefined => exact absurd rfl h

/-! ## Rounding -/

theorem floor_bounds (q : ℚ) : (q.floor : ℚ) ≤ q ∧ q < q.floor + 1 :=
  ⟨Int.floor_le q, Int.lt_floor_add_one q⟩

/-- No integer is nearer than the rounded number. -/
theorem abs_sub_round_le (q : ℚ) (n : ℤ) : |q - round q| ≤ |q - n| := by
  obtain ⟨hlow, hhigh⟩ := floor_bounds q
  have hn : (n : ℚ) ≤ q.floor ∨ (q.floor : ℚ) + 1 ≤ n := by
    rcases lt_or_ge q.floor n with h | h
    · exact .inr (by exact_mod_cast h)
    · exact .inl (by exact_mod_cast h)
  unfold round
  simp only
  split
  · rename_i h
    have hhalf : 1 ≤ 2 * (q - q.floor) := by
      simp only [Bool.or_eq_true, Bool.and_eq_true, decide_eq_true_eq] at h
      rcases h with h | h
      · exact h.le
      · exact h.1.ge
    have hround : |q - ((q.floor + 1 : ℤ) : ℚ)| = q.floor + 1 - q := by
      rw [Int.cast_add, Int.cast_one, abs_of_nonpos (by linarith)]
      ring
    rw [hround]
    rcases hn with hn | hn
    · rw [abs_of_nonneg (by linarith)]
      linarith
    · rw [abs_of_nonpos (by linarith)]
      linarith
  · rename_i h
    have hhalf : 2 * (q - q.floor) ≤ 1 := by
      simp only [Bool.or_eq_true, Bool.and_eq_true, decide_eq_true_eq, not_or, not_lt] at h
      exact h.1
    have hround : |q - (q.floor : ℚ)| = q - q.floor := abs_of_nonneg (by linarith)
    rw [hround]
    rcases hn with hn | hn
    · rw [abs_of_nonneg (by linarith)]
      linarith
    · rw [abs_of_nonpos (by linarith)]
      linarith

theorem distance?_finite (q : ℚ) :
    Scalar.distance? (finite q) = some (finite |q - round q|) := by
  have hsub : Scalar.sub (finite q) (finite (round q : ℚ)) = finite (q - round q) :=
    sub_finite q (round q)
  have hdist : Scalar.distance? (finite q) =
      some (if Scalar.le Scalar.zero (finite (q - round q)) then finite (q - round q)
        else Scalar.neg (finite (q - round q))) := by
    rw [← hsub]
    rfl
  rw [hdist, zero_eq]
  by_cases h : 0 ≤ q - round q
  · rw [if_pos ((le_finite_iff _ _).2 h), abs_of_nonneg h]
  · rw [if_neg (fun hle => h ((le_finite_iff _ _).1 hle)), abs_of_neg (not_le.1 h)]
    rfl

theorem exists_distance_le_iff (q e : ℚ) : |q - round q| ≤ e ↔ ∃ n : ℤ, |q - n| ≤ e :=
  ⟨fun h => ⟨round q, h⟩, fun ⟨n, h⟩ => (abs_sub_round_le q n).trans h⟩

theorem lt_finite_iff (a b : ℚ) : Scalar.lt (finite a) (finite b) = true ↔ a < b := by
  unfold Scalar.lt
  rw [Bool.and_eq_true, Bool.not_eq_true', ← Bool.not_eq_true, le_finite_iff, le_finite_iff]
  exact ⟨fun h => not_le.1 h.2, fun h => ⟨h.le, not_le.2 h⟩⟩

theorem eq_finite_iff (a b : ℚ) : Scalar.eq (finite a) (finite b) = true ↔ a = b := by
  unfold Scalar.eq
  rw [Bool.and_eq_true, le_finite_iff, le_finite_iff]
  exact le_antisymm_iff.symm

/-! ## Order -/

variable {a b c : Extended}

/-- Nothing compares with the undefined number; the others are ordered as extended reals. -/
theorem le_iff : Scalar.le a b = true ↔ a ≠ undefined ∧ b ≠ undefined ∧ a.toEReal ≤ b.toEReal := by
  cases a with
  | undefined => exact iff_of_false (fun h => by cases h) fun h => h.1 rfl
  | finite p =>
    cases b with
    | undefined => exact iff_of_false (fun h => by cases h) fun h => h.2.1 rfl
    | finite q =>
      rw [le_finite_iff, toEReal, toEReal, coe_le_coe_iff]
      simp
    | infinite t =>
      cases t with
      | true => exact iff_of_false (fun h => by cases h) fun h => EReal.coe_ne_bot _ (le_bot_iff.1 h.2.2)
      | false => exact iff_of_true rfl ⟨by simp, by simp, le_top⟩
  | infinite s =>
    cases s with
    | true =>
      cases b with
      | undefined => exact iff_of_false (fun h => by cases h) fun h => h.2.1 rfl
      | finite q => exact iff_of_true rfl ⟨by simp, by simp, bot_le⟩
      | infinite t => exact iff_of_true rfl ⟨by simp, by simp, bot_le⟩
    | false =>
      cases b with
      | undefined => exact iff_of_false (fun h => by cases h) fun h => h.2.1 rfl
      | finite q => exact iff_of_false (fun h => by cases h) fun h => EReal.coe_ne_top _ (top_le_iff.1 h.2.2)
      | infinite t =>
        cases t with
        | true => exact iff_of_false (fun h => by cases h) fun h => absurd h.2.2 (by simp [toEReal])
        | false => exact iff_of_true rfl ⟨by simp, by simp, le_top⟩

theorem le_trans (hab : Scalar.le a b = true) (hbc : Scalar.le b c = true) :
    Scalar.le a c = true := by
  obtain ⟨ha, -, hab⟩ := le_iff.1 hab
  obtain ⟨-, hc, hbc⟩ := le_iff.1 hbc
  exact le_iff.2 ⟨ha, hc, hab.trans hbc⟩

theorem neg_ne_undefined (h : a ≠ undefined) : Scalar.neg a ≠ undefined := by
  cases a with
  | undefined => exact absurd rfl h
  | finite q => exact fun h => by cases h
  | infinite s => exact fun h => by cases h

theorem toEReal_neg (a : Extended) : toEReal (Scalar.neg a) = -a.toEReal := by
  cases a with
  | undefined => exact neg_zero.symm
  | finite q =>
    show (((-q : ℚ) : ℝ) : EReal) = -((q : ℝ) : EReal)
    rw [Rat.cast_neg, EReal.coe_neg]
  | infinite s =>
    cases s with
    | true => exact EReal.neg_bot.symm
    | false => exact EReal.neg_top.symm

theorem neg_le_neg_of_le (h : Scalar.le a b = true) :
    Scalar.le (Scalar.neg b) (Scalar.neg a) = true := by
  obtain ⟨ha, hb, hab⟩ := le_iff.1 h
  refine le_iff.2 ⟨neg_ne_undefined hb, neg_ne_undefined ha, ?_⟩
  rw [toEReal_neg, toEReal_neg]
  exact EReal.neg_le_neg_iff.2 hab

theorem finite_sub_le_finite_sub (q : ℚ) (h : Scalar.le b c = true) :
    Scalar.le (Scalar.sub (finite q) c) (Scalar.sub (finite q) b) = true := by
  cases b with
  | finite r =>
    cases c with
    | finite s =>
      rw [le_finite_iff] at h
      rw [sub_finite, sub_finite, le_finite_iff]
      linarith
    | infinite negative =>
      cases negative with
      | true => cases h
      | false => rfl
    | undefined => cases h
  | infinite negative =>
    cases c with
    | finite s =>
      cases negative with
      | true => rfl
      | false => cases h
    | infinite other => cases negative <;> cases other <;> first | rfl | cases h
    | undefined => cases h
  | undefined => cases h

theorem infinite_le_iff : Scalar.le (infinite false) a = true ↔ a = infinite false := by
  cases a with
  | infinite negative => cases negative <;> simp [Scalar.le, le]
  | _ => exact iff_of_false (fun h => by cases h) fun h => by cases h

theorem neg_le_infinite_iff : Scalar.le (Scalar.neg a) (infinite true) = true ↔ a = infinite false := by
  cases a with
  | infinite negative => cases negative <;> simp [Scalar.le, Scalar.neg, le, neg]
  | _ => exact iff_of_false (fun h => by cases h) fun h => by cases h

theorem infinite_sub (negative : Bool) (c : Extended) :
    Scalar.sub (infinite negative) c = infinite negative ∨
      Scalar.sub (infinite negative) c = undefined := by
  cases c with
  | finite q => exact .inl rfl
  | infinite other => cases negative <;> cases other <;> first | exact .inl rfl | exact .inr rfl
  | undefined => exact .inr rfl

end Extended
end Bilevel
