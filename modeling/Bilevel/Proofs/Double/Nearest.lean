import Bilevel.Proofs.Double.Arithmetic
import Bilevel.Proofs.Exact.Faithful

/-!
# Bilevel.Proofs.Double.Nearest

Doubles are faithful numbers.

* `exists_ofInt?_nearest?`: a finite double has a nearest integer, and this integer is a finite double
  again: it is either the number itself or at most the first one with more than 53 bits.
* `exists_ofInt?`: integers of up to 53 bits are finite doubles.
* `eq_infinity`: infinity is the only double that is read as infinity.
-/

namespace Bilevel
namespace Double

open Float.Model (UnpackedFloat)

/-! ## The nearest integer -/

theorem roundShift_le {m k : ℕ} (hk : 0 < k) : roundShift m k ≤ m / 2 + 1 := by
  have hle : m / 2 ^ k ≤ m / 2 := Nat.div_le_div_left (Nat.le_self_pow hk.ne' 2) (by norm_num)
  unfold roundShift
  simp only
  split
  · exact Nat.succ_le_succ hle
  · exact Nat.le_succ_of_le hle

/-- The integer nearest to a point of the grid is at most some point of the grid. -/
theorem exists_nearest_le {m : ℕ} {e : ℤ} (h : Grid.Fits m e) (he : e ≤ 971) :
    ∃ (n : ℕ) (f : ℤ), Grid.Fits n f ∧ f ≤ 971 ∧
      ((if 0 ≤ e then m * Nat.pow 2 e.toNat else roundShift m (-e).toNat : ℕ) : ℚ) ≤ n * 2 ^ f := by
  by_cases hnonneg : 0 ≤ e
  · obtain ⟨k, rfl⟩ := Int.eq_ofNat_of_zero_le hnonneg
    refine ⟨m, k, h, he, ?_⟩
    rw [if_pos hnonneg, Int.toNat_natCast, zpow_natCast]
    exact_mod_cast le_rfl
  · refine ⟨2 ^ 52, 1, ⟨by norm_num, by norm_num, .inl le_rfl⟩, by norm_num, ?_⟩
    have hlt := h.lt
    have hround := roundShift_le (m := m) (k := (-e).toNat) (by omega)
    have hle : roundShift m (-e).toNat ≤ 2 ^ 52 * 2 := by omega
    rw [if_neg hnonneg, zpow_one]
    exact_mod_cast hle

theorem isFinite_ofInt {n : ℕ} {m : ℕ} {e : ℤ} (h : Grid.Fits m e) (he : e ≤ 971)
    (hle : (n : ℚ) ≤ m * 2 ^ e) (negative : Bool) :
    (Float.ofInt (if negative then -n else n)).isFinite = true := by
  have hnonneg : (0 : ℚ) ≤ n := Nat.cast_nonneg n
  have hnear : Grid.near n < Grid.limit :=
    (Grid.near_mono hnonneg hle).trans_lt (h.near_eq.trans_lt (h.lt_limit_iff.2 he))
  have hcast : ((if negative then -n else n : ℤ) : ℚ) = withSign negative n := by
    cases negative with
    | false => rfl
    | true => exact Int.cast_neg _
  rw [isFinite_iff, exact_ofInt, hcast, Extended.rounded, nearest_withSign hnonneg,
    capped_withSign_of_lt (Grid.near_nonneg hnonneg) hnear]
  exact ⟨_, rfl⟩

theorem exists_view {x : Float} (h : (exact x).IsFinite) :
    ∃ negative m e, view x = .finite negative m e ∧ Grid.Fits m e ∧ e ≤ 971 := by
  have henc := encodable_toModel x
  rw [exact_eq] at h
  rw [view_eq]
  cases hx : x.toModel.unpack with
  | notANumber =>
    rw [hx] at h
    obtain ⟨q, hq⟩ := h
    cases hq
  | infinity s =>
    rw [hx] at h
    obtain ⟨q, hq⟩ := h
    cases hq
  | zero s => exact ⟨_, 0, -1074, rfl, ⟨by norm_num, le_rfl, .inr rfl⟩, by norm_num⟩
  | finite s m e hm =>
    rw [hx] at henc
    exact ⟨_, m, e, rfl, henc.1, henc.2⟩

/-- A finite double has a nearest integer, and this is not too large for a double. -/
theorem exists_ofInt?_nearest? {x : Float} (h : (exact x).IsFinite) :
    ∃ n y, nearest? x = some n ∧ ofInt? n = some y := by
  obtain ⟨negative, m, e, hview, hfits, he⟩ := exists_view h
  obtain ⟨n, f, hgrid, hf, hle⟩ := exists_nearest_le hfits he
  unfold nearest?
  rw [hview]
  exact ⟨_, _, rfl, if_pos (isFinite_ofInt hgrid hf hle negative)⟩

theorem exists_distance? {x : Float} (h : (exact x).IsFinite) :
    ∃ far, Scalar.distance? x = some far := by
  obtain ⟨n, y, hn, hy⟩ := exists_ofInt?_nearest? h
  have hn' : Scalar.nearest? x = some n := hn
  have hy' : Scalar.ofInt? n = some y := hy
  unfold Scalar.distance?
  rw [hn', Option.bind_eq_bind, Option.bind_some, hy']
  exact ⟨_, rfl⟩

/-! ## Doubles as numbers -/

theorem exact_zero : exact (Float.ofBits 0) = .finite 0 :=
  exact_pack_zero .positive

/-- Integers of up to 53 bits are finite doubles, and those that are not negative are not below zero. -/
theorem exists_ofInt? {k : ℤ} (h : k.natAbs ≤ 2 ^ 53) :
    ∃ x : Float, Scalar.ofInt? k = some x ∧ (exact x).IsFinite ∧
      (0 ≤ k → Scalar.le Scalar.zero x = true) := by
  have hfits : Grid.Fits (2 ^ 52) 1 := ⟨by norm_num, by norm_num, .inl le_rfl⟩
  have hle : (k.natAbs : ℚ) ≤ (2 ^ 52 : ℕ) * 2 ^ (1 : ℤ) := by
    rw [zpow_one]
    exact_mod_cast h
  have hfin := isFinite_ofInt hfits (by norm_num) hle (decide (k < 0))
  have hk : (if decide (k < 0) = true then -(k.natAbs : ℤ) else k.natAbs) = k := by
    by_cases hneg : k < 0
    · rw [if_pos (decide_eq_true hneg)]
      omega
    · rw [if_neg (by simpa using hneg)]
      omega
  rw [hk] at hfin
  refine ⟨Float.ofInt k, if_pos hfin, (isFinite_iff _).1 hfin, fun h0 => ?_⟩
  have hmono := Extended.rounded_le_rounded ((Extended.le_finite_iff 0 k).2 (Int.cast_nonneg h0))
  rw [Extended.rounded_zero, ← exact_ofInt, ← exact_zero] at hmono
  exact (le_eq _ _).trans hmono

theorem nearest?_zero : nearest? (Float.ofBits 0) = some 0 := by
  have hview : view (Float.ofBits 0) = .finite false 0 (-1074) := by decide +kernel
  have hshift : ∀ k, roundShift 0 k = 0 := fun k => by simp [roundShift]
  rw [nearest?, hview]
  simp [hshift]

/-- Zero is its own nearest integer. -/
theorem distance?_zero : Scalar.distance? (Scalar.zero : Float) = some Scalar.zero := by
  have hnear : Scalar.nearest? (Scalar.zero : Float) = some 0 := nearest?_zero
  have hint : Scalar.ofInt? 0 = some (Scalar.zero : Float) := rfl
  have hsub : Scalar.sub (Scalar.zero : Float) Scalar.zero = Scalar.zero := rfl
  have hle : Scalar.le (Scalar.zero : Float) Scalar.zero = true := rfl
  rw [Scalar.distance?, hnear, Option.bind_eq_bind, Option.bind_some, hint, Option.bind_eq_bind,
    Option.bind_some, hsub]
  exact congrArg some (if_pos hle)

/-- Infinity is written with one pattern of bits only. -/
theorem eq_infinity {x : Float} (h : exact x = .infinite false) :
    x = Float.ofBits 0x7ff0000000000000 := by
  have hview : View.ofBits x.toBits.toNat = .infinite false := by
    unfold exact view at h
    cases hv : View.ofBits x.toBits.toNat with
    | infinite negative =>
      rw [hv] at h
      cases h
      rfl
    | _ =>
      rw [hv] at h
      cases h
  have hbits : x.toBits.toNat = 0x7ff0000000000000 := by
    have hlt := x.toBits.toNat_lt
    unfold View.ofBits hiddenBit exponents at hview
    simp only at hview
    split at hview
    · split at hview
      · have hneg := of_decide_eq_false (View.infinite.inj hview)
        omega
      · cases hview
    · split at hview <;> cases hview
  have hinf : (Float.ofBits 0x7ff0000000000000).toBits = 0x7ff0000000000000 := by decide +kernel
  exact Float.toBits_inj.1 (UInt64.toNat_inj.1 (by rw [hinf]; exact hbits))

instance : Faithful Float where
  exact := exact
  round := Extended.rounded
  round_zero := Extended.rounded_zero
  round_infinite _ := rfl
  round_undefined := rfl
  round_exact := rounded_exact
  round_le_round := Extended.rounded_le_rounded
  exact_zero := exact_zero
  le_eq := le_eq
  exact_neg := exact_neg
  exact_add := exact_add
  exact_sub := exact_sub
  exact_mul := exact_mul
  exists_distance? := exists_distance?

end Double
end Bilevel
