import Bilevel.Proofs.Double.Text

/-!
# Bilevel.Proofs.Double.Integers

Integers as doubles.

* `Grid.exists_fits`: the integers of up to 53 bits are points of the grid, so that they are doubles as
  they are (`exact_ofInt_of_le`).
* `eq_of_exact`: apart from zero, doubles that are the same number are one.
* `AddsZero` says that adding zero leaves all counts as they are. Doubles and exact numbers both do.
-/

namespace Bilevel

namespace Grid

theorem exists_fits {n : ℕ} (h : n ≤ 2 ^ 53) :
    ∃ (m : ℕ) (e : ℤ), Fits m e ∧ e ≤ 1 ∧ (m : ℚ) * 2 ^ e = n := by
  rcases Nat.eq_zero_or_pos n with rfl | hn
  · exact ⟨0, -1074, ⟨by norm_num, le_rfl, .inr rfl⟩, by norm_num, by simp⟩
  · rcases h.lt_or_eq with hlt | rfl
    · -- the significand is filled up from below
      obtain ⟨k, hk⟩ := Nat.exists_eq_add_of_le (Nat.lt_succ_iff.1 ((Nat.log2_lt hn.ne').2 hlt))
      have hlow := Nat.log2_self_le hn.ne'
      have hhigh : n < 2 ^ (n.log2 + 1) := Nat.lt_log2_self
      refine ⟨n * 2 ^ k, -k, ⟨?_, by omega, .inl ?_⟩, by omega, ?_⟩
      · calc n * 2 ^ k < 2 ^ (n.log2 + 1) * 2 ^ k := Nat.mul_lt_mul_of_pos_right hhigh (by positivity)
          _ = 2 ^ 53 := by rw [← pow_add, show n.log2 + 1 + k = 53 by omega]
      · calc 2 ^ 52 = 2 ^ n.log2 * 2 ^ k := by rw [← pow_add, ← hk]
          _ ≤ n * 2 ^ k := Nat.mul_le_mul_right _ hlow
      · rw [Nat.cast_mul, Nat.cast_pow, Nat.cast_ofNat, mul_assoc, ← zpow_natCast,
          ← zpow_add₀ (by norm_num), add_neg_cancel, zpow_zero, mul_one]
    · exact ⟨2 ^ 52, 1, ⟨by norm_num, by norm_num, .inl le_rfl⟩, le_rfl, by norm_num⟩

end Grid

namespace Extended

theorem rounded_natCast {n : ℕ} (h : n ≤ 2 ^ 53) : (finite n).rounded = finite n := by
  obtain ⟨m, e, hfits, he, hn⟩ := Grid.exists_fits h
  have hlimit := hfits.lt_limit_iff.2 (show e ≤ 971 by omega)
  have hnear := hfits.near_eq
  rw [hn] at hnear hlimit
  rw [rounded, Grid.nearest_of_nonneg (Nat.cast_nonneg n), hnear]
  exact capped_of_lt (by linarith [Grid.limit_pos, Nat.cast_nonneg (α := ℚ) n]) hlimit

theorem add_finite_zero (v : Extended) : v.add (finite 0) = v := by
  cases v with
  | finite q => rw [add, add_zero]
  | infinite negative => rfl
  | undefined => rfl

end Extended

namespace Double

/-- The integers of up to 53 bits are doubles. -/
theorem exact_ofInt_of_le {k : ℤ} (h : k.natAbs ≤ 2 ^ 53) : exact (Float.ofInt k) = .finite k := by
  rw [exact_ofInt]
  rcases Int.natAbs_eq k with hk | hk
  · rw [hk, Int.cast_natCast]
    exact Extended.rounded_natCast h
  · have hneg : Extended.finite k = (Extended.finite k.natAbs).neg := by
      rw [Extended.neg, Extended.finite.injEq]
      exact_mod_cast hk
    rw [hneg, Extended.rounded_neg, Extended.rounded_natCast h]

/-- Apart from zero, a number is written with one pattern of bits only. -/
theorem eq_of_exact {x y : Float} (h : exact x = exact y) (hx : exact x ≠ .finite 0) : x = y := by
  have hfits := @fits_of_view x
  have hfits' := @fits_of_view y
  refine view_injective ?_
  unfold exact at h hx
  generalize view x = v at h hx hfits
  generalize view y = w at h hfits'
  cases v with
  | undefined => cases w <;> cases h; rfl
  | infinite s => cases w <;> cases h; rfl
  | finite s m e =>
    cases w with
    | undefined => cases h
    | infinite t => cases h
    | finite t n f =>
      have hm : 0 < m := by
        refine Nat.pos_of_ne_zero fun h0 => hx ?_
        rw [h0, View.exact, Nat.cast_zero, zero_mul, withSign, neg_zero, ite_self]
      have hn : 0 < n := by
        refine Nat.pos_of_ne_zero fun h0 => hx ?_
        rw [h, h0, View.exact, Nat.cast_zero, zero_mul, withSign, neg_zero, ite_self]
      rw [View.exact, View.exact, Extended.finite.injEq] at h
      obtain rfl : s = t := by
        rw [← withSign_lt_zero (Grid.point_pos hm e) s, h, withSign_lt_zero (Grid.point_pos hn f) t]
      have hmagnitude : (m : ℚ) * 2 ^ e = n * 2 ^ f := by
        cases s with
        | false => exact h
        | true => exact neg_injective h
      obtain ⟨rfl, rfl⟩ := (hfits rfl).eq_of_eq (hfits' rfl) hmagnitude
      rfl

theorem add_zero_of_ne {x : Float} (h : exact x ≠ .finite 0) : x.add (Float.ofBits 0) = x := by
  have hexact : exact (x.add (Float.ofBits 0)) = exact x := by
    rw [exact_add, exact_zero, Extended.add_finite_zero, rounded_exact]
  exact eq_of_exact hexact (hexact ▸ h)

theorem eq_ofInt {k : ℤ} {x : Float} (h : Scalar.ofInt? k = some x) : x = Float.ofInt k := by
  have hint : (if (Float.ofInt k).isFinite then some (Float.ofInt k) else none) = some x := h
  split at hint
  · exact (Option.some.inj hint).symm
  · cases hint

theorem exact_ofNat_ne_zero {n : ℕ} (h : 0 < n) : exact (Scalar.ofNat n : Float) ≠ .finite 0 := by
  intro hzero
  rw [Scalar.ofNat] at hzero
  have hone : exact (Float.ofInt 1) = .finite 1 := by
    exact_mod_cast exact_ofInt_of_le (k := 1) (by norm_num)
  have hle : Scalar.le (exact (Float.ofInt 1)) (exact (Float.ofInt n)) = true := by
    rw [exact_ofInt, exact_ofInt]
    refine Extended.rounded_le_rounded ((Extended.le_finite_iff _ _).2 ?_)
    exact_mod_cast h
  cases hint : (Scalar.ofInt? (n : ℤ) : Option Float) with
  | none =>
    rw [hint] at hzero
    exact absurd hzero (by decide +kernel)
  | some x =>
    rw [hint, Option.getD_some, eq_ofInt hint] at hzero
    rw [hzero, hone, Extended.le_finite_iff] at hle
    norm_num at hle

end Double

/-- Adding zero leaves counts as they are. -/
class AddsZero (α : Type) [Scalar α] : Prop where
  add_zero (n : ℕ) : Scalar.add (Scalar.ofNat n) Scalar.zero = (Scalar.ofNat n : α)

instance : AddsZero Float where
  add_zero n := by
    rcases Nat.eq_zero_or_pos n with rfl | hn
    · rfl
    · exact Double.add_zero_of_ne (Double.exact_ofNat_ne_zero hn)

instance : AddsZero Extended where
  add_zero n := Extended.add_finite_zero (Scalar.ofNat n)

end Bilevel
