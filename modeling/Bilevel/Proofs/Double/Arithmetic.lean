import Bilevel.Proofs.Double.Rounding

/-!
# Bilevel.Proofs.Double.Arithmetic

Sums, differences, products and conversions of doubles are the exact results, rounded.

* `exact_add`, `exact_sub`, `exact_mul` hold for all doubles, infinities and the undefined one
  included.
* `exact_ofInt`: an integer becomes the nearest double. `exists_ofInt?_of_nearest?`: the integer nearest
  to a finite double is never too large for one.
-/

namespace Bilevel
namespace Double

open Float.Model (Format UnpackedFloat totalExponent)
open Float.Model.UnpackedFloat

theorem nearest_withSign {v : ℚ} (h : 0 ≤ v) (negative : Bool) :
    Grid.nearest (withSign negative v) = withSign negative (Grid.near v) := by
  cases negative with
  | false => exact Grid.nearest_of_nonneg h
  | true => exact (Grid.nearest_neg v).trans (congrArg _ (Grid.nearest_of_nonneg h))

/-- What can be encoded is not rounded. -/
theorem rounded_value {f : UnpackedFloat} (h : Encodable f) : (value f).rounded = value f := by
  cases f with
  | notANumber => rfl
  | infinity s => rfl
  | zero s => rw [value_zero, Extended.rounded_zero]
  | finite s m e hm =>
    obtain ⟨hfits, he⟩ := h
    have hnonneg := Grid.point_nonneg m e
    rw [value_finite, Extended.rounded, nearest_withSign hnonneg, hfits.near_eq,
      capped_withSign_of_lt hnonneg (hfits.lt_limit_iff.2 he)]

/-! ## Sums and differences -/

theorem cast_apply (s : Sign) (m : ℤ) : ((s.apply m : ℤ) : ℚ) = withSign (isNegative s) m := by
  cases s with
  | negative => exact Int.cast_neg m
  | positive => rfl

theorem withSign_mul (negative : Bool) (v w : ℚ) :
    withSign negative v * w = withSign negative (v * w) := by
  cases negative with
  | false => rfl
  | true => exact neg_mul v w

theorem decreaseExponent_mul (m : ℕ) (e f : ℤ) (h : f ≤ e) :
    ((decreaseExponent m e f).1 : ℚ) * 2 ^ f = m * 2 ^ e := by
  obtain ⟨k, rfl⟩ : ∃ k : ℕ, e = f + k := ⟨(e - f).toNat, by omega⟩
  have hk : (f + k - f).toNat = k := by omega
  show ((m <<< (f + k - f).toNat : ℕ) : ℚ) * 2 ^ f = m * 2 ^ (f + k : ℤ)
  rw [hk, Nat.shiftLeft_eq, zpow_add₀ (by norm_num), zpow_natCast]
  push_cast
  ring

/-- On a common exponent sums of significands are sums of numbers. -/
theorem cast_sum_mul (s t : Sign) (m n : ℕ) (e f : ℤ) :
    ((s.apply (decreaseExponent m e (min e f)).1 + t.apply (decreaseExponent n f (min e f)).1 : ℤ) : ℚ) *
        2 ^ min e f =
      withSign (isNegative s) (m * 2 ^ e) + withSign (isNegative t) (n * 2 ^ f) := by
  rw [Int.cast_add, cast_apply, cast_apply, add_mul, withSign_mul, withSign_mul, Int.cast_natCast,
    Int.cast_natCast, decreaseExponent_mul m e _ (min_le_left e f),
    decreaseExponent_mul n f _ (min_le_right e f)]

/-- Where nothing has to be rounded, the value of the result is enough. -/
theorem exact_pack_of_value {f : UnpackedFloat} {v : Extended} (hf : Encodable f)
    (h : value f = v.rounded) : exact (.ofModel (.pack f)) = v.rounded := by
  rw [exact_pack_of_encodable hf, h]

theorem exact_pack_zero (s : Sign) : exact (.ofModel (.pack (.zero s))) = .finite 0 := by
  have h : Encodable (.zero s) := trivial
  rw [exact_pack_of_encodable h, value_zero]

theorem exact_pack_add {f g : UnpackedFloat} (hf : Encodable f) (hg : Encodable g) :
    exact (.ofModel (.pack (UnpackedFloat.add .binary64 f g))) = ((value f).add (value g)).rounded := by
  cases f with
  | notANumber => exact exact_pack_of_value (by trivial) rfl
  | infinity s =>
    cases g with
    | infinity t =>
      cases s <;> cases t <;> exact exact_pack_of_value (by trivial) rfl
    | _ => exact exact_pack_of_value (by trivial) rfl
  | zero s =>
    rw [value_zero]
    cases g with
    | notANumber => exact exact_pack_of_value (by trivial) rfl
    | infinity t => exact exact_pack_of_value (by trivial) rfl
    | zero t =>
      rw [value_zero, Extended.add, add_zero, Extended.rounded_zero]
      cases s <;> cases t <;> exact exact_pack_zero _
    | finite t n f hn =>
      refine exact_pack_of_value hg ?_
      rw [value_finite, Extended.add, zero_add, ← value_finite t n f hn, rounded_value hg]
      rfl
  | finite s m e hm =>
    cases g with
    | notANumber => exact exact_pack_of_value (by trivial) rfl
    | infinity t => exact exact_pack_of_value (by trivial) rfl
    | zero t =>
      refine exact_pack_of_value hf ?_
      rw [value_zero, value_finite, Extended.add, add_zero, ← value_finite s m e hm, rounded_value hf]
      rfl
    | finite t n f hn =>
      rw [value_finite, value_finite, Extended.add, ← cast_sum_mul]
      exact exact_normalize _ _ _

theorem exact_add (x y : Float) : exact (x.add y) = ((exact x).add (exact y)).rounded := by
  rw [exact_eq x, exact_eq y, ← exact_pack_add (encodable_toModel x) (encodable_toModel y)]
  rfl

theorem apply_neg (s : Sign) (m : ℤ) : (-s).apply m = -s.apply m := by
  cases s with
  | negative => exact (neg_neg m).symm
  | positive => rfl

theorem sub_eq_add (f g : UnpackedFloat) :
    UnpackedFloat.sub .binary64 f g = UnpackedFloat.add .binary64 f g.neg := by
  cases f with
  | notANumber => cases g <;> rfl
  | infinity s => cases g <;> rfl
  | zero s => cases g <;> rfl
  | finite s m e hm =>
    cases g with
    | finite t n f hn =>
      rw [UnpackedFloat.sub, UnpackedFloat.neg, UnpackedFloat.add]
      simp only [apply_neg, Int.sub_eq_add_neg]
    | _ => rfl

theorem exact_sub (x y : Float) : exact (x.sub y) = ((exact x).add (exact y).neg).rounded := by
  have h := exact_pack_add (encodable_toModel x) (encodable_neg (encodable_toModel y))
  rw [exact_eq x, exact_eq y, ← value_neg, ← h, ← sub_eq_add]
  rfl

/-! ## Products -/

theorem isNegative_mul (s t : Sign) : isNegative (s * t) = (isNegative s != isNegative t) := by
  cases s <;> cases t <;> rfl

theorem withSign_mul_withSign (a b : Bool) (v w : ℚ) :
    withSign a v * withSign b w = withSign (a != b) (v * w) := by
  cases a <;> cases b <;> simp [withSign]

/-- Products of points of the grid have bits enough. -/
theorem add_le_exponent {m n : ℕ} {e f : ℤ} (hme : Grid.Fits m e) (hnf : Grid.Fits n f) (hm : 0 < m)
    (hn : 0 < n) : e + f ≤ Grid.exponent ((m * n : ℕ) * 2 ^ (e + f)) := by
  have he := hme.min_le
  have hf := hnf.min_le
  rw [Grid.exponent, Grid.log_mul_zpow (Nat.mul_pos hm hn)]
  have hlog : 2 ^ 52 ≤ m ∨ 2 ^ 52 ≤ n → 52 ≤ (m * n).log2 := by
    intro h
    rw [Nat.le_log2 (Nat.mul_pos hm hn).ne']
    rcases h with h | h
    · exact h.trans (Nat.le_mul_of_pos_right m hn)
    · exact h.trans (Nat.le_mul_of_pos_left n hm)
  rcases hme.filled with hfull | rfl
  · have := hlog (.inl hfull)
    omega
  · rcases hnf.filled with hfull | rfl
    · have := hlog (.inr hfull)
      omega
    · omega

theorem withSign_ne_zero {v : ℚ} (h : 0 < v) (negative : Bool) : withSign negative v ≠ 0 := by
  cases negative with
  | false => exact h.ne'
  | true => exact neg_ne_zero.2 h.ne'

theorem withSign_lt_zero {v : ℚ} (h : 0 < v) (negative : Bool) :
    decide (withSign negative v < 0) = negative := by
  cases negative with
  | false => exact decide_eq_false h.not_gt
  | true => exact decide_eq_true (neg_lt_zero.2 h)

theorem exact_pack_mul {f g : UnpackedFloat} (hf : Encodable f) (hg : Encodable g) :
    exact (.ofModel (.pack (UnpackedFloat.mul .binary64 f g))) = ((value f).mul (value g)).rounded := by
  cases f with
  | notANumber => exact exact_pack_of_value (by trivial) rfl
  | infinity s =>
    cases g with
    | notANumber => exact exact_pack_of_value (by trivial) rfl
    | infinity t => cases s <;> cases t <;> exact exact_pack_of_value (by trivial) rfl
    | zero t =>
      refine exact_pack_of_value (by trivial) ?_
      rw [value_zero]
      rfl
    | finite t n f hn =>
      refine exact_pack_of_value (by trivial) ?_
      rw [value_finite]
      show _ = (if _ then _ else _ : Extended).rounded
      rw [if_neg (withSign_ne_zero (Grid.point_pos hn f) _), withSign_lt_zero (Grid.point_pos hn f),
        ← isNegative_mul]
      rfl
  | zero s =>
    rw [value_zero]
    cases g with
    | notANumber => exact exact_pack_of_value (by trivial) rfl
    | infinity t => exact exact_pack_of_value (by trivial) rfl
    | zero t =>
      rw [value_zero, Extended.mul, mul_zero, Extended.rounded_zero]
      exact exact_pack_zero _
    | finite t n f hn =>
      rw [value_finite, Extended.mul, zero_mul, Extended.rounded_zero]
      exact exact_pack_zero _
  | finite s m e hm =>
    cases g with
    | notANumber => exact exact_pack_of_value (by trivial) rfl
    | infinity t =>
      refine exact_pack_of_value (by trivial) ?_
      rw [value_finite]
      show _ = (if _ then _ else _ : Extended).rounded
      rw [if_neg (withSign_ne_zero (Grid.point_pos hm e) _), withSign_lt_zero (Grid.point_pos hm e),
        bne_comm, ← isNegative_mul]
      rfl
    | zero t =>
      rw [value_zero, value_finite, Extended.mul, mul_zero, Extended.rounded_zero]
      exact exact_pack_zero _
    | finite t n f hn =>
      have hprod : (m : ℚ) * 2 ^ e * (n * 2 ^ f) = (m * n : ℕ) * 2 ^ (e + f) := by
        rw [zpow_add₀ (by norm_num)]
        push_cast
        ring
      have h := exact_pack (holds_roundWithAccuracy (s * t) (Nat.mul_pos hm hn)
        (add_le_exponent hf.1 hg.1 hm hn))
      have hnonneg := Grid.point_nonneg (m * n) (e + f)
      rw [value_finite, value_finite, Extended.mul, withSign_mul_withSign, ← isNegative_mul, hprod,
        Extended.rounded, nearest_withSign hnonneg]
      exact h

theorem exact_mul (x y : Float) : exact (x.mul y) = ((exact x).mul (exact y)).rounded := by
  rw [exact_eq x, exact_eq y, ← exact_pack_mul (encodable_toModel x) (encodable_toModel y)]
  rfl

/-! ## Integers -/

/-- Doubles are not rounded. -/
theorem rounded_exact (x : Float) : (exact x).rounded = exact x := by
  rw [exact_eq, rounded_value (encodable_toModel x)]

theorem exact_one : exact (Float.ofBits 0x3ff0000000000000) = .finite 1 := by
  have h : view (Float.ofBits 0x3ff0000000000000) = .finite false (2 ^ 52) (-52) := by decide +kernel
  rw [exact, h, View.exact, withSign]
  norm_num

theorem mul_finite_one (v : Extended) : v.mul (.finite 1) = v := by
  cases v with
  | finite q => rw [Extended.mul, mul_one]
  | infinite s => cases s <;> simp [Extended.mul]
  | undefined => rfl

theorem exact_toFloat (n : UInt64) : exact n.toFloat = (Extended.finite n.toNat).rounded := by
  have h := exact_normalize n.toNat 0 .positive
  rw [zpow_zero, mul_one] at h
  exact h

theorem exact_ofScientific {n : ℕ} (hn : 0 < n) :
    exact (.ofModel (.ofScientific n 0)) = (Extended.finite n).rounded := by
  have hvalue : ((n <<< 53 * 10 ^ (0 : ℤ).toNat : ℕ) : ℚ) * 2 ^ (-53 + 0 : ℤ) = n := by
    rw [Nat.shiftLeft_eq, Int.toNat_zero, pow_zero, mul_one, add_zero, zpow_neg]
    push_cast
    field_simp
  have hexp : (-53 + 0 : ℤ) ≤ Grid.exponent n := by
    have hlog := Grid.log_mul_zpow hn 0
    rw [zpow_zero, mul_one] at hlog
    rw [Grid.exponent, hlog]
    omega
  have hpos : 0 < n <<< 53 * 10 ^ (0 : ℤ).toNat := by
    rw [Nat.shiftLeft_eq]
    positivity
  have h := exact_pack (holds_roundWithAccuracy .positive hpos (by rw [hvalue]; exact hexp))
  rw [hvalue] at h
  rw [Extended.rounded, Grid.nearest_of_nonneg (Nat.cast_nonneg n)]
  have hsmall : ¬(0 : ℤ) < -((2 ^ Format.binary64.exponentBits : ℤ) + n.log2) := by
    show ¬(0 : ℤ) < -(2048 + n.log2)
    omega
  have hmul : UnpackedFloat.ofScientific .binary64 n 0 =
      roundWithAccuracy .binary64 .positive (n <<< 53 * 10 ^ (0 : ℤ).toNat) (-53 + 0) .exact := by
    unfold UnpackedFloat.ofScientific
    rw [dif_neg hn.ne', if_neg (by decide), if_neg hsmall, if_pos le_rfl]
    rfl
  rw [Float.Model.ofScientific, hmul]
  exact h

theorem exact_ofNat (n : ℕ) : exact (Float.ofNat n) = (Extended.finite n).rounded := by
  show exact (Float.ofScientific n false 0) = _
  unfold Float.ofScientific
  by_cases h : n < 2 ^ 53
  · have hn : n.toUInt64.toNat = n := Nat.mod_eq_of_lt (h.trans (by norm_num))
    rw [dif_pos ⟨h, by decide⟩]
    show exact (n.toUInt64.toFloat.mul (Float.ofBits 0x3ff0000000000000)) = _
    rw [exact_mul, exact_one, mul_finite_one, rounded_exact, exact_toFloat, hn]
  · rw [dif_neg fun h' => h h'.1]
    exact exact_ofScientific (by omega)

/-- An integer becomes the nearest double. -/
theorem exact_ofInt (n : ℤ) : exact (Float.ofInt n) = (Extended.finite n).rounded := by
  cases n with
  | ofNat n => exact exact_ofNat n
  | negSucc n =>
    rw [Float.ofInt, exact_neg, exact_ofNat, ← Extended.rounded_neg, Extended.neg, Int.cast_negSucc]

end Double
end Bilevel
