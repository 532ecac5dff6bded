import Bilevel.Proofs.Decimal.Reading
import Bilevel.Proofs.Double.Nearest

/-!
# Bilevel.Proofs.Double.Text

The text of a double names it.

* `Grid.near_eq_of_close`: whatever is closer to a point of the grid than half the way to its
  neighbours is rounded to it; in the middle this goes for even points.
* `near_of_holds`: these are the numbers in the span of a double.
* `view_injective`: doubles with one meaning are one. `nonzero_eq_false_iff`: two of them are zero.
* `text_injective`: the text of a double is read as a numeral that names it, and no other double.
-/

namespace Bilevel

theorem Extended.round_eq {z : ℚ} {n : ℤ} (hlow : n - 1 / 2 ≤ z) (hhigh : z ≤ n + 1 / 2)
    (htie : n % 2 = 0 ∨ n - 1 / 2 < z ∧ z < n + 1 / 2) : round z = n := by
  obtain ⟨hfloor, hceil⟩ := floor_bounds z
  unfold round
  simp only
  rcases lt_or_ge z n with hz | hz
  · -- the number lies below, so that its floor is the integer before
    have hf : z.floor = n - 1 := by
      have h1 : z.floor < n := by exact_mod_cast hfloor.trans_lt hz
      have h2 : n < z.floor + 2 := by exact_mod_cast (by linarith : (n : ℚ) < z.floor + 2)
      omega
    rw [hf]
    push_cast
    split
    · omega
    · rename_i h
      simp only [Bool.or_eq_true, Bool.and_eq_true, decide_eq_true_eq, not_or, not_lt, not_and] at h
      have hmiddle : 2 * (z - (n - 1)) = 1 := by linarith [h.1]
      have hodd := h.2 hmiddle
      rcases htie with htie | htie
      · omega
      · linarith [htie.1]
  · have hf : z.floor = n := by
      have h1 : n < z.floor + 1 := by exact_mod_cast hz.trans_lt hceil
      have h2 : z.floor < n + 1 := by
        exact_mod_cast (by linarith : (z.floor : ℚ) < n + 1)
      omega
    rw [hf]
    split
    · rename_i h
      simp only [Bool.or_eq_true, Bool.and_eq_true, decide_eq_true_eq] at h
      rcases h with h | ⟨hmiddle, hodd⟩
      · linarith
      · rcases htie with htie | htie
        · omega
        · linarith [htie.2]
    · rfl

namespace Grid

theorem exponent_eq_of_between {v : ℚ} {e : ℤ} (he : -1074 ≤ e) (hpos : 0 < v)
    (hlow : 2 ^ (e + 52) ≤ v ∨ e = -1074) (hhigh : v < 2 ^ (e + 53)) : exponent v = e := by
  have hlog := (Int.lt_zpow_iff_log_lt (b := 2) (by norm_num) hpos).1 hhigh
  rw [exponent]
  rcases hlow with hlow | rfl
  · have := (Int.zpow_le_iff_le_log (b := 2) (by norm_num) hpos).1 hlow
    omega
  · omega

/-- How far below a point of the grid the numbers begin that are rounded to it, counted in its own
grid: the grid below a power of two is finer. -/
def reach (m : ℕ) (e : ℤ) : ℚ := if m = 2 ^ 52 ∧ -1074 < e then 1 / 4 else 1 / 2

theorem reach_le (m : ℕ) (e : ℤ) : reach m e ≤ 1 / 2 := by
  unfold reach
  split <;> norm_num

theorem near_eq_of_exponent {v : ℚ} {e n : ℤ} (h : exponent v = e)
    (hlow : n - 1 / 2 ≤ v / 2 ^ e) (hhigh : v / 2 ^ e ≤ n + 1 / 2)
    (htie : n % 2 = 0 ∨ n - 1 / 2 < v / 2 ^ e ∧ v / 2 ^ e < n + 1 / 2) : near v = n * 2 ^ e := by
  rw [near, h, Extended.round_eq hlow hhigh htie]

/-- Just below a power of two, where the finer grid counts. -/
theorem near_eq_of_below {e : ℤ} {v : ℚ} (he : -1074 < e) (hlow : (2 ^ 52 - 1 / 4) * 2 ^ e ≤ v)
    (hhigh : v < 2 ^ 52 * 2 ^ e) : near v = 2 ^ 52 * 2 ^ e := by
  have hpos := two_zpow_pos (e - 1)
  have htwo : (2 : ℚ) ^ e = 2 * 2 ^ (e - 1) := by
    rw [← zpow_one_add₀ (by norm_num)]
    congr 1
    ring
  rw [htwo] at hlow hhigh ⊢
  have hexp : exponent v = e - 1 := by
    refine exponent_eq_of_between (by omega) (by nlinarith) (.inl ?_) ?_
    · rw [zpow_add₀ (by norm_num)]
      refine le_trans ?_ hlow
      rw [mul_comm, ← mul_assoc]
      exact mul_le_mul_of_nonneg_right (by norm_num) hpos.le
    · rw [zpow_add₀ (by norm_num)]
      refine hhigh.trans_le (le_of_eq ?_)
      norm_num
      ring
  have hnear := near_eq_of_exponent (n := 2 ^ 53) hexp ?_ ?_ (.inl (by norm_num))
  · rw [hnear]
    push_cast
    ring
  · rw [le_div_iff₀ hpos]
    refine le_trans (le_of_eq ?_) hlow
    push_cast
    ring
  · rw [div_le_iff₀ hpos]
    push_cast
    nlinarith

/-- Apart from the finer grid below a power of two, what is close lies in the same grid. -/
theorem exponent_eq_of_close {m : ℕ} {e : ℤ} {v : ℚ} (h : Fits m e) (hm : 0 < m)
    (habove : ¬(m = 2 ^ 52 ∧ -1074 < e ∧ v < m * 2 ^ e))
    (hlow : (m - reach m e) * 2 ^ e ≤ v) (hhigh : v ≤ (m + 1 / 2) * 2 ^ e) : exponent v = e := by
  have hpos := two_zpow_pos e
  have hreach := reach_le m e
  have hone : (1 : ℚ) ≤ m := by exact_mod_cast hm
  have hv : 0 < v := lt_of_lt_of_le (mul_pos (by linarith) hpos) hlow
  refine exponent_eq_of_between h.min_le hv ?_ ?_
  · rcases h.filled with hfull | he
    · rw [or_iff_not_imp_right]
      intro he
      rw [zpow_add₀ (by norm_num), mul_comm]
      rcases hfull.lt_or_eq with hlt | rfl
      · refine le_trans (mul_le_mul_of_nonneg_right ?_ hpos.le) hlow
        have hsucc : (2 : ℚ) ^ 52 + 1 ≤ m := by exact_mod_cast hlt
        have hcast : (2 : ℚ) ^ (52 : ℤ) = 2 ^ 52 := by norm_num
        linarith
      · have hnot : ¬v < (2 ^ 52 : ℕ) * 2 ^ e := fun hlt =>
          habove ⟨rfl, lt_of_le_of_ne h.min_le (Ne.symm he), hlt⟩
        have hcast : (2 : ℚ) ^ (52 : ℤ) = (2 ^ 52 : ℕ) := by norm_num
        rw [hcast]
        exact not_lt.1 hnot
    · exact .inr he
  · refine hhigh.trans_lt ?_
    rw [zpow_add₀ (by norm_num), mul_comm (2 ^ e)]
    refine mul_lt_mul_of_pos_right ?_ hpos
    have hsucc : (m : ℚ) + 1 ≤ 2 ^ 53 := by exact_mod_cast h.lt
    have hcast : (2 : ℚ) ^ (53 : ℤ) = 2 ^ 53 := by norm_num
    linarith

theorem near_eq_of_close {m : ℕ} {e : ℤ} {v : ℚ} (h : Fits m e) (hm : 0 < m)
    (hlow : (m - reach m e) * 2 ^ e ≤ v) (hhigh : v ≤ (m + 1 / 2) * 2 ^ e)
    (htie : m % 2 = 0 ∨ (m - reach m e) * 2 ^ e < v ∧ v < (m + 1 / 2) * 2 ^ e) :
    near v = m * 2 ^ e := by
  have hpos := two_zpow_pos e
  have hreach := reach_le m e
  by_cases hbelow : m = 2 ^ 52 ∧ -1074 < e ∧ v < m * 2 ^ e
  · obtain ⟨rfl, he, hv⟩ := hbelow
    rw [reach, if_pos ⟨rfl, he⟩] at hlow
    push_cast at hlow hv ⊢
    exact near_eq_of_below he hlow hv
  · have hexp := exponent_eq_of_close h hm hbelow hlow hhigh
    have hnear := near_eq_of_exponent (n := m) hexp ?_ ?_ ?_
    · rw [hnear, Int.cast_natCast]
    · rw [le_div_iff₀ hpos, Int.cast_natCast]
      exact le_trans (mul_le_mul_of_nonneg_right (by linarith) hpos.le) hlow
    · rw [div_le_iff₀ hpos, Int.cast_natCast]
      exact hhigh
    · refine htie.imp (fun heven => by omega) fun hstrict => ?_
      rw [lt_div_iff₀ hpos, div_lt_iff₀ hpos, Int.cast_natCast]
      exact ⟨lt_of_le_of_lt (mul_le_mul_of_nonneg_right (by linarith) hpos.le) hstrict.1, hstrict.2⟩

theorem Fits.eq_of_eq {m n : ℕ} {e f : ℤ} (hme : Fits m e) (hnf : Fits n f)
    (h : (m : ℚ) * 2 ^ e = n * 2 ^ f) : m = n ∧ e = f := by
  rcases Nat.eq_zero_or_pos m with rfl | hm
  · rw [Nat.cast_zero, zero_mul, eq_comm, mul_eq_zero] at h
    have hn : n = 0 := by exact_mod_cast h.resolve_right (two_zpow_pos f).ne'
    subst hn
    have he := hme.filled.resolve_left (by norm_num)
    have hf := hnf.filled.resolve_left (by norm_num)
    exact ⟨rfl, he.trans hf.symm⟩
  · have hn : 0 < n := by
      rcases Nat.eq_zero_or_pos n with rfl | hn
      · rw [Nat.cast_zero, zero_mul] at h
        exact absurd h (point_pos hm e).ne'
      · exact hn
    have h1 := (hme.le_iff hnf hm hn).1 h.le
    have h2 := (hnf.le_iff hme hn hm).1 h.ge
    omega

end Grid

namespace Double

/-- The grid on which spans are counted: so many of its units are the gap between doubles. -/
theorem exists_gap (m : ℕ) (q : ℤ) : ∃ gap : ℕ, (gap : ℚ) * 10 ^ min q 0 = 2 ^ q ∧
    span m q = (⟨m * gap, if m = 2 ^ 52 ∧ -1074 < q then gap else 2 * gap, 2 * gap, m % 2 = 0⟩,
      min q 0) := by
  refine ⟨if 0 ≤ q then 2 ^ q.toNat else 5 ^ (-q).toNat, ?_, ?_⟩
  · split
    · rename_i hq
      rw [min_eq_right hq, zpow_zero, mul_one, Nat.cast_pow, ← zpow_natCast, Int.toNat_of_nonneg hq]
      rfl
    · rename_i hq
      have hinv : ((5 ^ (-q).toNat : ℕ) : ℚ) * 5 ^ q = 1 := by
        rw [Nat.cast_pow, ← zpow_natCast, Int.toNat_of_nonneg (by omega), Nat.cast_ofNat,
          ← zpow_add₀ (by norm_num), neg_add_cancel, zpow_zero]
      rw [min_eq_left (by omega), show (10 : ℚ) = 2 * 5 by norm_num, mul_zpow, mul_left_comm, hinv,
        mul_one]
  · have hnarrow : (decide (m = hiddenBit) && decide (-1074 < q)) = true ↔
        m = 2 ^ 52 ∧ -1074 < q := by
      rw [Bool.and_eq_true, decide_eq_true_eq, decide_eq_true_eq]
      rfl
    simp only [span, hnarrow]
    rfl

/-- What lies in the span of a double is rounded to it. -/
theorem near_of_holds {m d : ℕ} {q : ℤ} (h : Grid.Fits m q) (hm : 0 < m)
    (hd : (span m q).1.holds d = true) : Grid.near (Decimal.value d (span m q).2) = m * 2 ^ q := by
  obtain ⟨gap, hgap, hspan⟩ := exists_gap m q
  have hunit : (0 : ℚ) < 10 ^ min q 0 := zpow_pos (by norm_num) _
  rw [hspan] at hd ⊢
  rw [Decimal.Span.holds_iff] at hd
  simp only [decide_eq_true_eq] at hd
  set below := if m = 2 ^ 52 ∧ -1074 < q then gap else 2 * gap with hbelow
  set v := Decimal.value d (min q 0) with hv
  -- both ends of the span in terms of the double's own grid
  have hscale : ∀ a b : ℕ, (a ≤ b → (a : ℚ) * 10 ^ min q 0 ≤ b * 10 ^ min q 0) ∧
      (a < b → (a : ℚ) * 10 ^ min q 0 < b * 10 ^ min q 0) := fun a b =>
    ⟨fun hab => mul_le_mul_of_nonneg_right (Nat.cast_le.2 hab) hunit.le,
      fun hab => mul_lt_mul_of_pos_right (Nat.cast_lt.2 hab) hunit⟩
  have hcentre : ((4 * (m * gap) : ℕ) : ℚ) * 10 ^ min q 0 = 4 * (m * 2 ^ q) := by
    rw [← hgap]
    push_cast
    ring
  have hlow : ((4 * d + below : ℕ) : ℚ) * 10 ^ min q 0 = 4 * (v + Grid.reach m q * 2 ^ q) := by
    rw [hv, hbelow, ← hgap, Grid.reach, Decimal.value]
    split <;> push_cast <;> ring
  have hpoint : ((4 * d : ℕ) : ℚ) * 10 ^ min q 0 = 4 * v := by
    rw [hv, Decimal.value]
    push_cast
    ring
  have hhigh : ((4 * (m * gap) + 2 * gap : ℕ) : ℚ) * 10 ^ min q 0 = 4 * ((m + 1 / 2) * 2 ^ q) := by
    rw [← hgap]
    push_cast
    ring
  have hleft := hscale (4 * (m * gap)) (4 * d + below)
  have hright := hscale (4 * d) (4 * (m * gap) + 2 * gap)
  rw [hcentre, hlow] at hleft
  rw [hpoint, hhigh] at hright
  split at hd
  · rename_i heven
    have h1 := hleft.1 hd.1
    have h2 := hright.1 hd.2
    exact Grid.near_eq_of_close h hm (by linarith) (by linarith) (.inl heven)
  · have h1 := hleft.2 hd.1
    have h2 := hright.2 hd.2
    exact Grid.near_eq_of_close h hm (by linarith) (by linarith) (.inr ⟨by linarith, by linarith⟩)

theorem span_pos (m : ℕ) (q : ℤ) : 0 < (span m q).1.below ∧ 0 < (span m q).1.above := by
  obtain ⟨gap, hgap, hspan⟩ := exists_gap m q
  have hpos : 0 < gap := by
    rcases Nat.eq_zero_or_pos gap with rfl | hpos
    · rw [Nat.cast_zero, zero_mul] at hgap
      exact absurd hgap (Grid.two_zpow_pos q).ne
    · exact hpos
  rw [hspan]
  constructor
  · show 0 < if m = 2 ^ 52 ∧ -1074 < q then gap else 2 * gap
    split <;> omega
  · show 0 < 2 * gap
    omega

/-- The digits that are chosen for a double are rounded to it. -/
theorem exists_magnitude {m : ℕ} {q : ℤ} (h : Grid.Fits m q) (hm : 0 < m) :
    ∃ n k, magnitude m q = Decimal.write n k ∧ Grid.near (Decimal.value n k) = m * 2 ^ q := by
  obtain ⟨hbelow, habove⟩ := span_pos m q
  have hholds := (span m q).1.holds_shortest hbelow habove
  refine ⟨_, _, rfl, ?_⟩
  rw [← Decimal.value_mul_pow]
  exact near_of_holds h hm hholds

/-! ## Doubles and numerals -/

/-- The numeral names the number: it is read as this one, of all that a double can be. -/
def Names : View → Numeral → Prop
  | .finite negative m q, .decimal negative' digits exponent =>
    negative = negative' ∧ Grid.near (Decimal.value digits exponent) = m * 2 ^ q
  | .infinite negative, .infinite negative' => negative = negative'
  | .undefined, .undefined => True
  | _, _ => False

theorem fits_of_view {x : Float} {negative : Bool} {m : ℕ} {q : ℤ}
    (h : view x = .finite negative m q) : Grid.Fits m q := by
  have henc := encodable_toModel x
  rw [view_eq] at h
  cases hx : x.toModel.unpack with
  | notANumber =>
    rw [hx] at h
    cases h
  | infinity s =>
    rw [hx] at h
    cases h
  | zero s =>
    rw [hx] at h
    cases h
    exact ⟨by norm_num, le_rfl, .inr rfl⟩
  | finite s m e hm =>
    rw [hx] at h henc
    cases h
    exact henc.1

theorem ofUnpacked_injective {f g : Float.Model.UnpackedFloat}
    (h : View.ofUnpacked f = View.ofUnpacked g) : f = g := by
  have hsign : ∀ {s t}, isNegative s = isNegative t → s = t := by
    rintro ⟨⟩ ⟨⟩ hst
    · rfl
    · cases hst
    · cases hst
    · rfl
  cases f with
  | notANumber => cases g <;> cases h; rfl
  | infinity s =>
    cases g <;> simp only [View.ofUnpacked, View.infinite.injEq, reduceCtorEq] at h
    rw [hsign h]
  | zero s =>
    cases g <;> simp only [View.ofUnpacked, View.finite.injEq, reduceCtorEq] at h
    · rw [hsign h.1]
    · omega
  | finite s m e hm =>
    cases g <;> simp only [View.ofUnpacked, View.finite.injEq, reduceCtorEq] at h
    · omega
    · obtain ⟨hs, rfl, rfl⟩ := h
      rw [hsign hs]

/-- Doubles with one meaning are one, also the undefined ones. -/
theorem view_injective {x y : Float} (h : view x = view y) : x = y := by
  rw [view_eq, view_eq] at h
  rw [← Float.ofBits_toBits x, ← Float.ofBits_toBits y]
  exact congrArg (fun f => Float.ofModel (.pack f)) (ofUnpacked_injective h)

/-- A numeral names at most one double. -/
theorem eq_of_names {x y : Float} {n : Numeral} (hx : Names (view x) n) (hy : Names (view y) n) :
    x = y := by
  have hfits := @fits_of_view x
  have hfits' := @fits_of_view y
  refine view_injective ?_
  generalize view x = v at hx hfits
  generalize view y = w at hy hfits'
  cases n with
  | undefined =>
    cases v <;> cases hx
    cases w <;> cases hy
    rfl
  | infinite negative =>
    cases v <;> cases hx
    cases w <;> cases hy
    rfl
  | decimal negative digits exponent =>
    cases v with
    | infinite s => cases hx
    | undefined => cases hx
    | finite s m e =>
      cases w with
      | infinite t => cases hy
      | undefined => cases hy
      | finite t n f =>
        obtain ⟨rfl, hm⟩ := hx
        obtain ⟨rfl, hn⟩ := hy
        obtain ⟨rfl, rfl⟩ := (hfits rfl).eq_of_eq (hfits' rfl) (hm.symm.trans hn)
        rfl

/-! ## Zeros -/

theorem view_zero : view (Float.ofBits 0) = .finite false 0 (-1074) := by decide +kernel

theorem view_negativeZero : view (Float.ofBits 0x8000000000000000) = .finite true 0 (-1074) := by
  decide +kernel

theorem exact_eq_zero_iff (x : Float) :
    exact x = .finite 0 ↔ x = Float.ofBits 0 ∨ x = Float.ofBits 0x8000000000000000 := by
  constructor
  · intro h
    rw [exact] at h
    cases hx : view x with
    | infinite negative =>
      rw [hx] at h
      cases h
    | undefined =>
      rw [hx] at h
      cases h
    | finite negative m q =>
      rw [hx, View.exact, Extended.finite.injEq] at h
      obtain rfl : m = 0 := by
        have hm : (m : ℚ) * 2 ^ q = 0 := by
          cases negative with
          | true => exact neg_eq_zero.1 h
          | false => exact h
        exact_mod_cast (mul_eq_zero.1 hm).resolve_right (Grid.two_zpow_pos q).ne'
      obtain rfl : q = -1074 := (fits_of_view hx).filled.resolve_left (by norm_num)
      cases negative with
      | true => exact .inr (view_injective (hx.trans view_negativeZero.symm))
      | false => exact .inl (view_injective (hx.trans view_zero.symm))
  · rintro (rfl | rfl)
    · rw [exact, view_zero]
      simp [View.exact, withSign]
    · rw [exact, view_negativeZero]
      simp [View.exact, withSign]

/-- The doubles that count as zero are the two zeros. -/
theorem nonzero_eq_false_iff (x : Float) :
    Scalar.nonzero x = false ↔ x = Float.ofBits 0 ∨ x = Float.ofBits 0x8000000000000000 := by
  have hexact : Scalar.eq x Scalar.zero = Scalar.eq (exact x) (.finite 0) := by
    rw [Scalar.eq, Scalar.eq, Faithful.le_eq x, Faithful.le_eq Scalar.zero x, Faithful.exact_zero]
    rfl
  rw [← exact_eq_zero_iff, Scalar.nonzero, Bool.not_eq_false', hexact]
  cases exact x with
  | finite q => rw [Extended.eq_finite_iff, Extended.finite.injEq]
  | infinite negative => cases negative <;> decide
  | undefined => decide

/-! ## Reading a text -/

theorem toList_signed (negative : Bool) (cs : List Char) :
    (signed negative cs).toList = if negative then '-' :: cs else cs :=
  String.toList_ofList

theorem splitSign_signed {c : Char} {cs : List Char} (hminus : c ≠ '-') (hplus : c ≠ '+')
    (negative : Bool) :
    Numeral.splitSign (signed negative (c :: cs)).toList = (negative, c :: cs) := by
  rw [toList_signed]
  cases negative with
  | true => rfl
  | false =>
    unfold Numeral.splitSign
    split
    · exact absurd (List.cons.inj ‹_›).1 hminus
    · exact absurd (List.cons.inj ‹_›).1 hplus
    · rfl

theorem isNumeric_of_mem_signed {negative : Bool} {cs : List Char}
    (h : ∀ c ∈ cs, isNumeric c = true) : ∀ c ∈ (signed negative cs).toList, isNumeric c = true := by
  intro c hc
  rw [toList_signed] at hc
  split at hc
  · rcases List.mem_cons.1 hc with rfl | hc
    · rfl
    · exact h c hc
  · exact h c hc

/-- A decimal with a sign is read. -/
theorem ofText?_signed_write (negative : Bool) (n : ℕ) (k : ℤ) : ∃ digits exponent,
    Numeral.ofText? (signed negative (Decimal.write n k)) =
      some (.decimal negative digits exponent) ∧
    Decimal.value digits exponent = Decimal.value n k := by
  obtain ⟨digits, exponent, hread, hvalue⟩ := Numeral.writes_write k negative
  obtain ⟨c, cs, hcons, hc⟩ := Decimal.exists_write_eq_cons n k
  refine ⟨digits, exponent, ?_, hvalue⟩
  rw [Numeral.ofText?_of_numeric (isNumeric_of_mem_signed fun c => Decimal.isNumeric_of_mem_write),
    hcons, splitSign_signed, Numeral.unsigned?_of_digit hc, ← hcons, hread]
  · rintro rfl
    cases hc
  · rintro rfl
    cases hc

/-- The text of a double consists of numeric characters, and it is read as a numeral that names the
double. -/
theorem exists_ofText?_text (x : Float) : (∀ c ∈ (text x).toList, isNumeric c = true) ∧
    ∃ n, Numeral.ofText? (text x) = some n ∧ Names (view x) n := by
  rw [text]
  cases hx : view x with
  | undefined => exact ⟨by simp [isNumeric], .undefined, by decide +kernel, trivial⟩
  | infinite negative =>
    refine ⟨isNumeric_of_mem_signed (by simp [isNumeric]), .infinite negative, ?_, rfl⟩
    cases negative <;> decide +kernel
  | finite negative m q =>
    have hfits := fits_of_view hx
    by_cases hm : m = 0
    · have hzero : Decimal.write 0 0 = ['0', '.', '0'] := by simp [Decimal.write, Decimal.trim]; rfl
      obtain ⟨digits, exponent, hread, hvalue⟩ := ofText?_signed_write negative 0 0
      simp only [if_pos hm, ← hzero]
      refine ⟨isNumeric_of_mem_signed fun c => Decimal.isNumeric_of_mem_write, _, hread, rfl, ?_⟩
      rw [hvalue, hm, Decimal.value, Nat.cast_zero, zero_mul, zero_mul, Grid.near_zero]
    · obtain ⟨n, k, hwrite, hnear⟩ := exists_magnitude hfits (Nat.pos_of_ne_zero hm)
      obtain ⟨digits, exponent, hread, hvalue⟩ := ofText?_signed_write negative n k
      simp only [if_neg hm, hwrite]
      refine ⟨isNumeric_of_mem_signed fun c => Decimal.isNumeric_of_mem_write, _, hread, rfl, ?_⟩
      rw [hvalue, hnear]

theorem text_injective : Function.Injective text := by
  intro x y h
  obtain ⟨-, n, hn, hx⟩ := exists_ofText?_text x
  obtain ⟨-, n', hn', hy⟩ := exists_ofText?_text y
  rw [h, hn', Option.some.injEq] at hn
  subst hn
  exact eq_of_names hx hy

end Double
end Bilevel
