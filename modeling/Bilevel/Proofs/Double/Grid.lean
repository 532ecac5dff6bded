import Bilevel.Proofs.Exact.Scalar
import Mathlib.Data.Int.Log
import Mathlib.Tactic.Positivity

/-!
# Bilevel.Proofs.Double.Grid

The numbers that doubles can be, as rationals, and rounding to them.

* `Grid.exponent` is the exponent of the grid at a magnitude: 53 bits, and none below `2 ^ -1074`.
  `Grid.near` is the nearest point of the grid, of two the even one.
* `Extended.rounded` rounds exact numbers: magnitudes from `Grid.limit` on become infinities.
* `rounded_le_rounded`: rounding keeps the order, also across the places where the grid gets wider.
-/

namespace Bilevel

namespace Extended

/-- Rounding moves a number by a half at most. -/
theorem round_bounds (q : ℚ) : (round q : ℚ) - 1 / 2 ≤ q ∧ q ≤ round q + 1 / 2 := by
  obtain ⟨hlow, hhigh⟩ := floor_bounds q
  unfold round
  simp only
  split
  · rename_i h
    simp only [Bool.or_eq_true, Bool.and_eq_true, decide_eq_true_eq] at h
    rw [Int.cast_add, Int.cast_one]
    constructor
    · rcases h with h | h
      · linarith
      · linarith [h.1]
    · linarith
  · rename_i h
    simp only [Bool.or_eq_true, Bool.and_eq_true, decide_eq_true_eq, not_or, not_lt] at h
    constructor
    · linarith
    · linarith [h.1]

theorem round_intCast (n : ℤ) : round n = n := by
  obtain ⟨hlow, hhigh⟩ := round_bounds n
  have h1 : round (n : ℚ) < n + 1 := by exact_mod_cast (by linarith : (round (n : ℚ) : ℚ) < n + 1)
  have h2 : n < round (n : ℚ) + 1 := by exact_mod_cast (by linarith : (n : ℚ) < round (n : ℚ) + 1)
  omega

/-- Numbers that were rounded against their order would both lie in the middle of two integers, and
so be the same number. -/
theorem round_mono {p q : ℚ} (h : p ≤ q) : round p ≤ round q := by
  by_contra hlt
  have hstep : (round q : ℚ) + 1 ≤ round p := by exact_mod_cast not_le.1 hlt
  have hp := (round_bounds p).1
  have hq := (round_bounds q).2
  have heq : p = q := by linarith
  exact hlt (by rw [heq])

end Extended

namespace Grid

/-- The exponent of the grid at a positive number. -/
def exponent (v : ℚ) : ℤ := max (Int.log 2 v - 52) (-1074)

/-- The point of the grid nearest to a number that is not negative, of two the even one. -/
def near (v : ℚ) : ℚ := Extended.round (v / 2 ^ exponent v) * 2 ^ exponent v

theorem two_zpow_pos (k : ℤ) : (0 : ℚ) < 2 ^ k := zpow_pos (by norm_num) k

theorem point_pos {m : ℕ} (hm : 0 < m) (e : ℤ) : (0 : ℚ) < m * 2 ^ e :=
  mul_pos (Nat.cast_pos.2 hm) (two_zpow_pos e)

theorem point_nonneg (m : ℕ) (e : ℤ) : (0 : ℚ) ≤ m * 2 ^ e :=
  mul_nonneg (Nat.cast_nonneg m) (two_zpow_pos e).le

theorem exponent_mono {v w : ℚ} (hv : 0 < v) (h : v ≤ w) : exponent v ≤ exponent w :=
  max_le_max (sub_le_sub_right (Int.log_mono_right hv h) 52) le_rfl

theorem near_zero : near 0 = 0 := by
  have h := Extended.round_intCast 0
  rw [Int.cast_zero] at h
  rw [near, zero_div, h, Int.cast_zero, zero_mul]

theorem lt_two_zpow (v : ℚ) : v < 2 ^ (exponent v + 53) := by
  have h := Int.lt_zpow_succ_log_self (b := 2) (by norm_num) v
  refine h.trans_le (zpow_le_zpow_right₀ (by norm_num) ?_)
  have := le_max_left (Int.log 2 v - 52) (-1074)
  unfold exponent
  omega

/-- Above the smallest exponent a number fills its 53 bits. -/
theorem two_zpow_le {v : ℚ} (hv : 0 < v) (h : exponent v ≠ -1074) : 2 ^ (exponent v + 52) ≤ v := by
  have hlog := Int.zpow_log_le_self (b := 2) (by norm_num) hv
  have hexp : exponent v + 52 = Int.log 2 v := by
    unfold exponent at h ⊢
    omega
  rw [hexp]
  exact hlog

theorem near_le_of_le {v : ℚ} {n : ℤ} (h : v ≤ n * 2 ^ exponent v) : near v ≤ n * 2 ^ exponent v := by
  have hround : Extended.round (v / 2 ^ exponent v) ≤ n := by
    rw [← Extended.round_intCast n]
    exact Extended.round_mono ((div_le_iff₀ (two_zpow_pos _)).2 h)
  exact mul_le_mul_of_nonneg_right (by exact_mod_cast hround) (two_zpow_pos _).le

theorem le_near_of_le {v : ℚ} {n : ℤ} (h : n * 2 ^ exponent v ≤ v) : n * 2 ^ exponent v ≤ near v := by
  have hround : n ≤ Extended.round (v / 2 ^ exponent v) := by
    rw [← Extended.round_intCast n]
    exact Extended.round_mono ((le_div_iff₀ (two_zpow_pos _)).2 h)
  exact mul_le_mul_of_nonneg_right (by exact_mod_cast hround) (two_zpow_pos _).le

theorem near_nonneg {v : ℚ} (hv : 0 ≤ v) : 0 ≤ near v := by
  have h := le_near_of_le (v := v) (n := 0) (by simpa using hv)
  simpa using h

theorem zpow_bits (k : ℤ) (n : ℕ) : ((2 ^ n : ℤ) : ℚ) * 2 ^ k = 2 ^ (k + n) := by
  rw [zpow_add₀ (by norm_num), zpow_natCast, mul_comm]
  push_cast
  rfl

/-- Rounding to the grid keeps the order, also where the grid gets wider. -/
theorem near_mono {v w : ℚ} (hv : 0 ≤ v) (h : v ≤ w) : near v ≤ near w := by
  rcases hv.eq_or_lt with rfl | hpos
  · rw [near_zero]
    exact near_nonneg h
  · rcases (exponent_mono hpos h).eq_or_lt with heq | hlt
    · unfold near
      rw [← heq]
      have hround := Extended.round_mono (div_le_div_of_nonneg_right h (two_zpow_pos (exponent v)).le)
      exact mul_le_mul_of_nonneg_right (by exact_mod_cast hround) (two_zpow_pos _).le
    · -- a power of two lies between the two numbers, and on both grids
      have hmin : -1074 ≤ exponent v := le_max_right _ _
      have hlow : near v ≤ 2 ^ (exponent v + 53) := by
        have hle := near_le_of_le (v := v) (n := 2 ^ 53) (by rw [zpow_bits]; exact (lt_two_zpow v).le)
        rwa [zpow_bits] at hle
      have hhigh : 2 ^ (exponent w + 52) ≤ near w := by
        have hle := le_near_of_le (v := w) (n := 2 ^ 52)
          (by rw [zpow_bits]; exact two_zpow_le (hpos.trans_le h) (by omega))
        rwa [zpow_bits] at hle
      refine hlow.trans (le_trans (zpow_le_zpow_right₀ (by norm_num) ?_) hhigh)
      omega

/-- The significand `m` and the exponent `e` are those of a point of the grid: 53 bits that are filled
above the smallest exponent. -/
structure Fits (m : ℕ) (e : ℤ) : Prop where
  lt : m < 2 ^ 53
  min_le : -1074 ≤ e
  filled : 2 ^ 52 ≤ m ∨ e = -1074

theorem log_mul_zpow {m : ℕ} (hm : 0 < m) (e : ℤ) :
    Int.log 2 ((m : ℚ) * 2 ^ e) = Nat.log2 m + e := by
  have hpos := point_pos hm e
  have hlow : (2 : ℚ) ^ ((Nat.log2 m : ℤ) + e) ≤ m * 2 ^ e := by
    rw [zpow_add₀ (by norm_num), zpow_natCast]
    exact mul_le_mul_of_nonneg_right (by exact_mod_cast Nat.log2_self_le hm.ne') (two_zpow_pos e).le
  have hhigh : (m : ℚ) * 2 ^ e < 2 ^ ((Nat.log2 m : ℤ) + e + 1) := by
    rw [show (Nat.log2 m : ℤ) + e + 1 = ((Nat.log2 m + 1 : ℕ) : ℤ) + e by push_cast; ring,
      zpow_add₀ (by norm_num), zpow_natCast]
    exact mul_lt_mul_of_pos_right (by exact_mod_cast Nat.lt_log2_self) (two_zpow_pos e)
  have h1 := (Int.zpow_le_iff_le_log (b := 2) (by norm_num) hpos).1 hlow
  have h2 := (Int.lt_zpow_iff_log_lt (b := 2) (by norm_num) hpos).1 hhigh
  omega

theorem Fits.exponent_eq {m : ℕ} {e : ℤ} (h : Fits m e) (hm : 0 < m) :
    exponent ((m : ℚ) * 2 ^ e) = e := by
  have hlt : Nat.log2 m < 53 := (Nat.log2_lt hm.ne').2 h.lt
  have hmin := h.min_le
  rw [exponent, log_mul_zpow hm]
  rcases h.filled with hfull | rfl
  · have hle : 52 ≤ Nat.log2 m := (Nat.le_log2 hm.ne').2 hfull
    omega
  · omega

/-- Points of the grid are ordered by their exponents first: what fills its bits is larger than all
numbers with a smaller exponent. -/
theorem Fits.le_iff {m n : ℕ} {e f : ℤ} (hme : Fits m e) (hnf : Fits n f) (hm : 0 < m) (hn : 0 < n) :
    (m : ℚ) * 2 ^ e ≤ n * 2 ^ f ↔ e < f ∨ e = f ∧ m ≤ n := by
  have hposm := point_pos hm e
  have hposn := point_pos hn f
  constructor
  · intro h
    have hexp := exponent_mono hposm h
    rw [hme.exponent_eq hm, hnf.exponent_eq hn] at hexp
    rcases hexp.lt_or_eq with hexp | rfl
    · exact .inl hexp
    · refine .inr ⟨rfl, ?_⟩
      exact_mod_cast le_of_mul_le_mul_right h (two_zpow_pos e)
  · rintro (h | ⟨rfl, h⟩)
    · by_contra hlt
      have hexp := exponent_mono hposn (not_le.1 hlt).le
      rw [hme.exponent_eq hm, hnf.exponent_eq hn] at hexp
      omega
    · exact mul_le_mul_of_nonneg_right (by exact_mod_cast h) (two_zpow_pos e).le

/-- Points of the grid stay where they are. -/
theorem Fits.near_eq {m : ℕ} {e : ℤ} (h : Fits m e) : near ((m : ℚ) * 2 ^ e) = m * 2 ^ e := by
  rcases Nat.eq_zero_or_pos m with rfl | hm
  · simpa using near_zero
  · have hround := Extended.round_intCast (m : ℤ)
    rw [Int.cast_natCast] at hround
    rw [near, h.exponent_eq hm, mul_div_cancel_right₀ _ (two_zpow_pos e).ne', hround, Int.cast_natCast]

/-- The first magnitude that is too large. -/
def limit : ℚ := 2 ^ 1024

theorem limit_pos : 0 < limit := by
  unfold limit
  positivity

/-- Magnitudes below the limit have exponents up to 971. -/
theorem Fits.lt_limit_iff {m : ℕ} {e : ℤ} (h : Fits m e) : (m : ℚ) * 2 ^ e < limit ↔ e ≤ 971 := by
  constructor
  · intro hlt
    by_contra he
    have hfull : ((2 ^ 52 : ℤ) : ℚ) ≤ m := by
      rcases h.filled with hfull | rfl
      · exact_mod_cast hfull
      · omega
    have hbig : limit ≤ 2 ^ (e + 52) := by
      rw [limit, ← zpow_natCast]
      exact zpow_le_zpow_right₀ (by norm_num) (by push_cast; omega)
    have hle := mul_le_mul_of_nonneg_right hfull (two_zpow_pos e).le
    rw [zpow_bits] at hle
    exact absurd (hbig.trans hle) (not_le.2 hlt)
  · intro he
    have hlt : (m : ℚ) < (2 ^ 53 : ℤ) := by exact_mod_cast h.lt
    have hbig : (2 : ℚ) ^ (e + 53) ≤ limit := by
      rw [limit, ← zpow_natCast]
      exact zpow_le_zpow_right₀ (by norm_num) (by push_cast; omega)
    have hle := mul_lt_mul_of_pos_right hlt (two_zpow_pos e)
    rw [zpow_bits] at hle
    exact hle.trans_le hbig

/-- The point of the grid nearest to a number, of two the even one. -/
def nearest (q : ℚ) : ℚ := if q < 0 then -near (-q) else near q

theorem nearest_of_nonneg {q : ℚ} (h : 0 ≤ q) : nearest q = near q := if_neg h.not_gt

theorem nearest_neg (q : ℚ) : nearest (-q) = -nearest q := by
  rcases lt_trichotomy q 0 with h | rfl | h
  · rw [nearest, if_neg (by linarith), nearest, if_pos h, neg_neg]
  · simp [nearest, near_zero]
  · rw [nearest, if_pos (by linarith), neg_neg, nearest_of_nonneg h.le]

theorem nearest_nonneg {q : ℚ} (h : 0 ≤ q) : 0 ≤ nearest q := by
  rw [nearest_of_nonneg h]
  exact near_nonneg h

theorem nearest_mono {p q : ℚ} (h : p ≤ q) : nearest p ≤ nearest q := by
  rcases lt_or_ge p 0 with hp | hp
  · rcases lt_or_ge q 0 with hq | hq
    · rw [nearest, if_pos hp, nearest, if_pos hq]
      exact neg_le_neg (near_mono (by linarith) (by linarith))
    · rw [nearest, if_pos hp]
      have hneg : 0 ≤ near (-p) := near_nonneg (by linarith)
      linarith [nearest_nonneg hq]
  · rw [nearest_of_nonneg hp, nearest_of_nonneg (hp.trans h)]
    exact near_mono hp h

end Grid

namespace Extended

/-- A rational number as a double would hold it: large magnitudes are infinities. -/
def capped (r : ℚ) : Extended :=
  if Grid.limit ≤ r then infinite false else if r ≤ -Grid.limit then infinite true else finite r

/-- The number of the grid that is nearest to an exact number. -/
def rounded : Extended → Extended
  | finite q => capped (Grid.nearest q)
  | infinite negative => infinite negative
  | undefined => undefined

theorem capped_of_lt {r : ℚ} (hlow : -Grid.limit < r) (hhigh : r < Grid.limit) : capped r = finite r := by
  rw [capped, if_neg hhigh.not_ge, if_neg hlow.not_ge]

theorem capped_neg (r : ℚ) : capped (-r) = (capped r).neg := by
  unfold capped
  by_cases hhigh : Grid.limit ≤ r
  · have hpos := Grid.limit_pos
    rw [if_neg (by linarith), if_pos (neg_le_neg hhigh), if_pos hhigh]
    rfl
  · by_cases hlow : r ≤ -Grid.limit
    · rw [if_pos (by linarith), if_neg hhigh, if_pos hlow]
      rfl
    · rw [if_neg (by linarith), if_neg (by linarith), if_neg hhigh, if_neg hlow]
      rfl

theorem rounded_neg (v : Extended) : v.neg.rounded = v.rounded.neg := by
  cases v with
  | finite q => rw [neg, rounded, Grid.nearest_neg, capped_neg, rounded]
  | infinite negative => rfl
  | undefined => rfl

theorem rounded_zero : (finite 0).rounded = finite 0 := by
  rw [rounded, Grid.nearest_of_nonneg le_rfl, Grid.near_zero]
  exact capped_of_lt (neg_lt_zero.2 Grid.limit_pos) Grid.limit_pos

theorem capped_le_capped {p q : ℚ} (h : p ≤ q) : Scalar.le (capped p) (capped q) = true := by
  unfold capped
  by_cases hp : Grid.limit ≤ p
  · rw [if_pos hp, if_pos (hp.trans h)]
    rfl
  · rw [if_neg hp]
    by_cases hq : Grid.limit ≤ q
    · rw [if_pos hq]
      split <;> rfl
    · rw [if_neg hq]
      by_cases hlow : p ≤ -Grid.limit
      · rw [if_pos hlow]
        split <;> rfl
      · rw [if_neg hlow, if_neg (fun hq => hlow (h.trans hq)), le_finite_iff]
        exact h

/-- Rounding keeps the order. -/
theorem rounded_le_rounded {v w : Extended} (h : Scalar.le v w = true) :
    Scalar.le v.rounded w.rounded = true := by
  cases v with
  | finite p =>
    cases w with
    | finite q => exact capped_le_capped (Grid.nearest_mono ((le_finite_iff p q).1 h))
    | infinite t =>
      cases t with
      | true => cases h
      | false =>
        rw [rounded, capped]
        split
        · rfl
        · split <;> rfl
    | undefined => cases h
  | infinite s =>
    cases w with
    | finite q =>
      cases s with
      | true =>
        rw [rounded, rounded, capped]
        split
        · rfl
        · split <;> rfl
      | false => cases h
    | infinite t => exact h
    | undefined => cases h
  | undefined => cases h

end Extended
end Bilevel
