import Bilevel.Proofs.Double.Encoding

/-!
# Bilevel.Proofs.Double.Rounding

The rounding of doubles is rounding to the nearest point of the grid.

* A significand that is shifted to the right keeps two further bits: the first bit that was lost, and
  whether anything was lost after it. `Represents` is the invariant of shifting, and these bits are
  all that rounding needs.
* `holds_roundWithAccuracy`, `holds_round`: a magnitude is rounded to the grid, also where rounding
  carries into a bit more. `exact_normalize` is the same for numbers with a sign.
-/

namespace Bilevel
namespace Double

open Float.Model (Format UnpackedFloat totalExponent)
open Float.Model.UnpackedFloat

/-- The significand and the two bits after it are those of a number: the first bit counts a half, and
the second one says whether there is more. -/
def Represents (em : ExtendedMantissa) (t : ℚ) : Prop :=
  ∃ rest : ℚ, 0 ≤ rest ∧ rest < 1 / 2 ∧ (em.stickyBit = true ↔ rest ≠ 0) ∧
    t = em.mantissa + (if em.roundBit then 1 / 2 else 0) + rest

theorem represents_exact (m : ℕ) : Represents ⟨m, false, false⟩ m :=
  ⟨0, le_rfl, by norm_num, by simp, by simp⟩

theorem Represents.shiftRightOne {em : ExtendedMantissa} {t : ℚ} (h : Represents em t) :
    Represents em.shiftRightOne (t / 2) := by
  obtain ⟨rest, hnonneg, hlt, hsticky, rfl⟩ := h
  have hm : (em.mantissa : ℚ) = 2 * (em.mantissa / 2 : ℕ) + (em.mantissa % 2 : ℕ) := by
    exact_mod_cast (Nat.div_add_mod em.mantissa 2).symm
  have hbit : ((em.mantissa % 2 : ℕ) : ℚ) / 2 = if em.mantissa % 2 != 0 then 1 / 2 else 0 := by
    rcases Nat.mod_two_eq_zero_or_one em.mantissa with h | h <;> simp [h]
  refine ⟨((if em.roundBit then 1 / 2 else 0) + rest) / 2, ?_, ?_, ?_, ?_⟩
  · split <;> linarith
  · split <;> linarith
  · rw [ExtendedMantissa.shiftRightOne]
    cases em.roundBit with
    | false => simpa using hsticky
    | true =>
      simp only [Bool.true_or, if_true, true_iff]
      intro h
      linarith
  · rw [ExtendedMantissa.shiftRightOne]
    simp only [← hbit]
    linarith

theorem Represents.shiftRight {em : ExtendedMantissa} {t : ℚ} (h : Represents em t) (k : ℕ) :
    Represents (em >>> k) (t / 2 ^ k) := by
  induction k with
  | zero =>
    rw [pow_zero, div_one]
    exact h
  | succ k ih =>
    rw [pow_succ, ← div_div]
    exact ih.shiftRightOne

theorem round_eq {t : ℚ} {m : ℕ} (hlow : (m : ℚ) ≤ t) (hhigh : t < m + 1) :
    Extended.round t =
      if 1 < 2 * (t - m) ∨ 2 * (t - m) = 1 ∧ m % 2 = 1 then (m + 1 : ℤ) else m := by
  obtain ⟨h1, h2⟩ := Extended.floor_bounds t
  have hfloor : t.floor = m := by
    have hle : t.floor < (m : ℤ) + 1 := by exact_mod_cast h1.trans_lt hhigh
    have hge : (m : ℤ) < t.floor + 1 := by exact_mod_cast hlow.trans_lt h2
    omega
  unfold Extended.round
  simp only [hfloor, Int.cast_natCast, Bool.or_eq_true, Bool.and_eq_true, decide_eq_true_eq]
  norm_cast

/-- The bits decide how the number is rounded. -/
theorem Represents.roundedMantissa {em : ExtendedMantissa} {t : ℚ} (h : Represents em t) :
    (em.roundedMantissa : ℤ) = Extended.round t := by
  obtain ⟨m, roundBit, stickyBit⟩ := em
  obtain ⟨rest, hnonneg, hlt, hsticky, ht⟩ := h
  have hlow : (m : ℚ) ≤ t := by
    rw [ht]
    split <;> linarith
  have hhigh : t < m + 1 := by
    rw [ht]
    split <;> linarith
  rw [round_eq hlow hhigh]
  cases roundBit with
  | false =>
    -- less than a half is left
    have hdown : ¬(1 < 2 * (t - m) ∨ 2 * (t - m) = 1 ∧ m % 2 = 1) := by
      simp only [Bool.false_eq_true, if_false, add_zero] at ht
      rintro (h | ⟨h, -⟩) <;> linarith
    rw [if_neg hdown]
    cases stickyBit <;> rfl
  | true =>
    simp only [if_true] at ht
    cases stickyBit with
    | false =>
      have hrest : rest = 0 := not_not.1 fun h => Bool.false_ne_true (hsticky.2 h)
      have hhalf : 2 * (t - m) = 1 := by
        rw [ht, hrest]
        ring
      have hround : (ExtendedMantissa.mk m true false).roundedMantissa = m + m % 2 := rfl
      rw [hround, hhalf]
      rcases Nat.mod_two_eq_zero_or_one m with h | h <;> simp [h]
    | true =>
      have hpos : 0 < rest := hnonneg.lt_of_ne (hsticky.1 rfl).symm
      have hround : (ExtendedMantissa.mk m true true).roundedMantissa = m + 1 := rfl
      rw [hround, if_pos (.inl (by linarith))]
      rfl

/-! ## The exponent of the grid -/

theorem targetExponent_eq {m : ℕ} (hm : 0 < m) (e : ℤ) :
    Format.binary64.targetExponent (totalExponent m e) = Grid.exponent (m * 2 ^ e) := by
  rw [Grid.exponent, Grid.log_mul_zpow hm]
  show max ((m.log2 + 1 + e : ℤ) - 53) (-1074) = _
  congr 1
  ring

theorem shiftToTargetExponent_eq {m : ℕ} (hm : 0 < m) (e : ℤ) :
    shiftToTargetExponent .binary64 m e .exact =
      ((ExtendedMantissa.mk m false false) >>> (Grid.exponent (m * 2 ^ e) - e).toNat,
        e + (Grid.exponent (m * 2 ^ e) - e).toNat) := by
  rw [← targetExponent_eq hm]
  rfl

theorem shiftToTargetExponent_of_fits {m : ℕ} {e : ℤ} (h : Grid.Fits m e) (hm : 0 < m) :
    shiftToTargetExponent .binary64 m e .exact = (⟨m, false, false⟩, e) := by
  rw [shiftToTargetExponent_eq hm, h.exponent_eq hm, sub_self]
  simp
  rfl

/-- Rounding up can fill one bit more. -/
theorem shiftToTargetExponent_carry {e : ℤ} (h : -1074 ≤ e) :
    shiftToTargetExponent .binary64 (2 ^ 53) e .exact = (⟨2 ^ 52, false, false⟩, e + 1) := by
  have hexp : Grid.exponent ((2 ^ 53 : ℕ) * 2 ^ e) = e + 1 := by
    rw [Grid.exponent, Grid.log_mul_zpow (by norm_num), Nat.log2_two_pow]
    omega
  rw [shiftToTargetExponent_eq (by norm_num), hexp, add_sub_cancel_left]
  rfl

/-- What has been shifted, as a number. -/
def assemble (s : Sign) (r : ExtendedMantissa × ℤ) : UnpackedFloat :=
  if h : r.1.mantissa = 0 then .zero s else .finite s r.1.mantissa r.2 (Nat.pos_of_ne_zero h)

theorem holds_assemble {m : ℕ} {e : ℤ} (h : Grid.Fits m e) (s : Sign) :
    Holds s (m * 2 ^ e) (assemble s (⟨m, false, false⟩, e)) := by
  unfold assemble
  by_cases hm : m = 0
  · rw [dif_pos hm]
    exact .zero (by simp [hm])
  · rw [dif_neg hm]
    exact .finite m e (Nat.pos_of_ne_zero hm) rfl h

theorem holds_assemble_zero (s : Sign) (e : ℤ) :
    Holds s 0 (assemble s (shiftToTargetExponent .binary64 0 e .exact)) := by
  obtain ⟨rest, hnonneg, -, -, h⟩ := (represents_exact 0).shiftRight
    (Format.binary64.targetExponent (totalExponent 0 e) - e).toNat
  have hzero : (shiftToTargetExponent .binary64 0 e .exact).1.mantissa = 0 := by
    rw [Nat.cast_zero, zero_div] at h
    have hle : ((shiftToTargetExponent .binary64 0 e .exact).1.mantissa : ℚ) ≤ 0 := by
      refine le_trans ?_ h.ge
      rw [add_assoc]
      refine le_add_of_nonneg_right (add_nonneg ?_ hnonneg)
      split <;> norm_num
    exact_mod_cast le_antisymm hle (Nat.cast_nonneg _)
  rw [assemble, dif_pos hzero]
  exact .zero rfl

/-- The rounded significand of a magnitude fits, or it is the first one with a bit more. -/
theorem fits_or_carry {v : ℚ} {n : ℕ} (hv : 0 < v)
    (hn : (n : ℤ) = Extended.round (v / 2 ^ Grid.exponent v)) :
    Grid.Fits n (Grid.exponent v) ∨ n = 2 ^ 53 := by
  have hle : n ≤ 2 ^ 53 := by
    have h := Grid.near_le_of_le (v := v) (n := 2 ^ 53) (by
      rw [Grid.zpow_bits]
      exact (Grid.lt_two_zpow v).le)
    rw [Grid.near, ← hn] at h
    exact_mod_cast le_of_mul_le_mul_right h (Grid.two_zpow_pos _)
  rcases hle.lt_or_eq with hlt | heq
  · refine .inl ⟨hlt, le_max_right _ _, ?_⟩
    by_cases hmin : Grid.exponent v = -1074
    · exact .inr hmin
    · have h := Grid.le_near_of_le (v := v) (n := 2 ^ 52) (by
        rw [Grid.zpow_bits]
        exact Grid.two_zpow_le hv hmin)
      rw [Grid.near, ← hn] at h
      exact .inl (by exact_mod_cast le_of_mul_le_mul_right h (Grid.two_zpow_pos _))
  · exact .inr heq

theorem holds_assemble_round {v : ℚ} {n : ℕ} (hv : 0 < v)
    (hn : (n : ℤ) = Extended.round (v / 2 ^ Grid.exponent v)) (s : Sign) :
    Holds s (Grid.near v) (assemble s (shiftToTargetExponent .binary64 n (Grid.exponent v) .exact)) := by
  rw [Grid.near, ← hn, Int.cast_natCast]
  rcases fits_or_carry hv hn with hfits | rfl
  · rcases Nat.eq_zero_or_pos n with rfl | hnpos
    · rw [Nat.cast_zero, zero_mul]
      exact holds_assemble_zero s _
    · rw [shiftToTargetExponent_of_fits hfits hnpos]
      exact holds_assemble hfits s
  · have hmin : -1074 ≤ Grid.exponent v := le_max_right _ _
    have hfits : Grid.Fits (2 ^ 52) (Grid.exponent v + 1) := ⟨by norm_num, by omega, .inl le_rfl⟩
    have hcarry : ((2 ^ 53 : ℕ) : ℚ) * 2 ^ Grid.exponent v = (2 ^ 52 : ℕ) * 2 ^ (Grid.exponent v + 1) := by
      rw [zpow_add_one₀ (by norm_num)]
      push_cast
      ring
    rw [shiftToTargetExponent_carry hmin, hcarry]
    exact holds_assemble hfits s

/-- A magnitude with bits enough is rounded to the grid. -/
theorem holds_roundWithAccuracy {m : ℕ} {e : ℤ} (s : Sign) (hm : 0 < m)
    (he : e ≤ Grid.exponent (m * 2 ^ e)) :
    Holds s (Grid.near (m * 2 ^ e)) (roundWithAccuracy .binary64 s m e .exact) := by
  have hpos := Grid.point_pos hm e
  obtain ⟨k, hk⟩ : ∃ k : ℕ, Grid.exponent (m * 2 ^ e) = e + k :=
    ⟨(Grid.exponent (m * 2 ^ e) - e).toNat, by omega⟩
  have hshift : shiftToTargetExponent .binary64 m e .exact =
      ((ExtendedMantissa.mk m false false) >>> k, Grid.exponent (m * 2 ^ e)) := by
    rw [shiftToTargetExponent_eq hm, hk, add_sub_cancel_left, Int.toNat_natCast]
  have hscale : (m : ℚ) * 2 ^ e / 2 ^ Grid.exponent (m * 2 ^ e) = m / 2 ^ k := by
    rw [hk, zpow_add₀ (by norm_num), zpow_natCast, mul_comm, mul_div_mul_left _ _ (Grid.two_zpow_pos e).ne']
  have hround := ((represents_exact m).shiftRight k).roundedMantissa
  rw [← hscale] at hround
  have h := holds_assemble_round hpos hround s
  unfold roundWithAccuracy
  simp only [hshift]
  exact h

/-- Every magnitude is rounded to the grid. -/
theorem holds_round {m : ℕ} (s : Sign) (e : ℤ) (hm : 0 < m) :
    Holds s (Grid.near (m * 2 ^ e)) (UnpackedFloat.round .binary64 s m e) := by
  unfold UnpackedFloat.round decreaseExponent
  simp only [targetExponent_eq hm, Nat.shiftLeft_eq]
  obtain ⟨k, hk⟩ : ∃ k : ℕ, k = (e - Grid.exponent (m * 2 ^ e)).toNat := ⟨_, rfl⟩
  have hsame : ((m * 2 ^ k : ℕ) : ℚ) * 2 ^ (e - k : ℤ) = m * 2 ^ e := by
    rw [zpow_sub₀ (by norm_num), zpow_natCast]
    push_cast
    field_simp
  have h := holds_roundWithAccuracy s (m := m * 2 ^ k) (e := e - k) (by positivity) (by
    rw [hsame]
    omega)
  rw [hsame] at h
  rw [← hk]
  exact h

/-- A signed number is rounded to the grid, magnitude by magnitude. -/
theorem exact_normalize (m e : ℤ) (s : Sign) :
    exact (.ofModel (.pack (UnpackedFloat.normalize .binary64 m e s))) =
      (Extended.finite (m * 2 ^ e)).rounded := by
  unfold UnpackedFloat.normalize
  rcases lt_trichotomy m 0 with h | rfl | h
  · have hmag : ((-m).toNat : ℚ) = -m := by
      rw [← Int.cast_natCast, Int.toNat_of_nonneg (by omega), Int.cast_neg]
    have hneg : (m : ℚ) * 2 ^ e < 0 := mul_neg_of_neg_of_pos (by exact_mod_cast h) (Grid.two_zpow_pos e)
    rw [compare_lt_iff_lt.2 h]
    simp only
    rw [exact_pack (holds_round .negative e (m := (-m).toNat) (by omega)), hmag, Extended.rounded,
      Grid.nearest, if_pos hneg, neg_mul]
    rfl
  · rw [compare_eq_iff_eq.2 rfl]
    simp only
    have henc : Encodable (.zero s) := trivial
    rw [exact_pack_of_encodable henc, value_zero, Int.cast_zero, zero_mul, Extended.rounded_zero]
  · have hmag : (m.toNat : ℚ) = m := by
      rw [← Int.cast_natCast, Int.toNat_of_nonneg (by omega)]
    have hpos : 0 ≤ (m : ℚ) * 2 ^ e := mul_nonneg (by exact_mod_cast h.le) (Grid.two_zpow_pos e).le
    rw [compare_gt_iff_gt.2 h]
    simp only
    rw [exact_pack (holds_round .positive e (m := m.toNat) (by omega)), hmag, Extended.rounded,
      Grid.nearest_of_nonneg hpos]
    rfl

end Double
end Bilevel
