import Bilevel.Proofs.Double.Grid
import Bilevel.Scalar.Double
import Mathlib

/-!
# Bilevel.Proofs.Double.Encoding

The bits of doubles and the exact numbers that they mean.

* `Double.exact` reads a double exactly, through `Double.view`. `View.ofUnpacked` says what the
  operations on doubles take the same bits for, and `view_eq` that this is the same meaning.
* `exact_pack`: what the operations put into bits is the number that they had, or an infinity from
  `Grid.limit` on.
* `exact_neg`, `le_eq`: signs and the order of doubles are exact.
-/

namespace Bilevel
namespace Double

open Float.Model (Format UnpackedFloat)
open Float.Model.UnpackedFloat (Sign unpackMantissa unpackExponent unpackSign packComponents)

/-- The number with this sign and magnitude. -/
def withSign (negative : Bool) (v : ℚ) : ℚ := if negative then -v else v

/-- The exact number that is meant. -/
def View.exact : View → Extended
  | .finite negative m e => .finite (withSign negative (m * 2 ^ e))
  | .infinite negative => .infinite negative
  | .undefined => .undefined

/-- The exact number that a double is. -/
def exact (x : Float) : Extended := (view x).exact

def isNegative : Sign → Bool
  | .negative => true
  | .positive => false

/-- The meaning of a number whose bits are taken apart. -/
def View.ofUnpacked : UnpackedFloat → View
  | .notANumber => .undefined
  | .infinity s => .infinite (isNegative s)
  | .zero s => .finite (isNegative s) 0 (-1074)
  | .finite s m e _ => .finite (isNegative s) m e

/-- Finite numbers are points of the grid below the limit. -/
def Encodable : UnpackedFloat → Prop
  | .finite _ m e _ => Grid.Fits m e ∧ e ≤ 971
  | _ => True

theorem toNat_unpackMantissa (b : BitVec Format.binary64.numBits) :
    (unpackMantissa b).toNat = b.toNat % hiddenBit := by
  simp [unpackMantissa, hiddenBit]

theorem toNat_unpackExponent (b : BitVec Format.binary64.numBits) :
    (unpackExponent b).toNat = b.toNat / hiddenBit % exponents := by
  simp [unpackExponent, hiddenBit, exponents, Nat.shiftRight_eq_div_pow]

theorem unpackSign_eq_zero_iff (b : BitVec Format.binary64.numBits) :
    unpackSign b = 0#1 ↔ b.toNat < hiddenBit * exponents := by
  have hlt : b.toNat < 2 ^ 64 := b.isLt
  rw [← BitVec.toNat_inj]
  simp only [unpackSign, BitVec.toNat_cast, BitVec.extractLsb_toNat, Nat.shiftRight_eq_div_pow,
    BitVec.toNat_ofNat, hiddenBit, exponents]
  omega

theorem isNegative_ofBitVec (b : BitVec Format.binary64.numBits) :
    isNegative (Sign.ofBitVec (unpackSign b)) = decide (hiddenBit * exponents ≤ b.toNat) := by
  unfold Sign.ofBitVec
  by_cases h : unpackSign b = 0#1
  · rw [if_pos h, decide_eq_false (not_le.2 ((unpackSign_eq_zero_iff b).1 h))]
    rfl
  · rw [if_neg h, decide_eq_true (not_lt.1 fun hlt => h ((unpackSign_eq_zero_iff b).2 hlt))]
    rfl

theorem toNat_one_append (m : BitVec Format.binary64.mantissaBitsWithoutImplicit) :
    (1#1 ++ m).toNat = hiddenBit + m.toNat := by
  rw [BitVec.toNat_append, ← Nat.shiftLeft_add_eq_or_of_lt m.isLt]
  rfl

theorem exponentBias_add :
    (Format.binary64.exponentBias + Format.binary64.mantissaBitsWithoutImplicit : ℤ) = 1075 := rfl

/-! ## Reading bits -/

theorem ofBits_toNat (b : BitVec Format.binary64.numBits) :
    View.ofBits b.toNat = View.ofUnpacked (UnpackedFloat.unpack .binary64 b) := by
  have hones : unpackExponent b = -1#_ ↔ b.toNat / hiddenBit % exponents + 1 = exponents := by
    rw [← toNat_unpackExponent, ← BitVec.toNat_inj,
      show (-1#_ : BitVec Format.binary64.exponentBits).toNat = 2047 from rfl]
    unfold exponents
    omega
  have hzero : unpackExponent b = 0#_ ↔ b.toNat / hiddenBit % exponents = 0 := by
    rw [← toNat_unpackExponent, ← BitVec.toNat_inj]
    rfl
  have hmant : unpackMantissa b = 0#_ ↔ b.toNat % hiddenBit = 0 := by
    rw [← toNat_unpackMantissa, ← BitVec.toNat_inj]
    rfl
  unfold View.ofBits UnpackedFloat.unpack
  simp only [← isNegative_ofBitVec, hones, hzero]
  split
  · simp only [hmant]
    split <;> rfl
  · split
    · rename_i hz
      split
      · rename_i hm
        rw [hmant.1 hm]
        rfl
      · rw [View.ofUnpacked, toNat_unpackMantissa, toNat_unpackExponent, hz]
        rfl
    · rw [View.ofUnpacked, toNat_one_append, toNat_unpackExponent, toNat_unpackMantissa]
      rfl

/-- The meaning of a double, from its bits as the operations take them apart. -/
theorem view_eq (x : Float) : view x = View.ofUnpacked x.toModel.unpack :=
  ofBits_toNat x.toModel.toBits.toBitVec

theorem encodable_unpack (b : BitVec Format.binary64.numBits) :
    Encodable (UnpackedFloat.unpack .binary64 b) := by
  have hexp : (unpackExponent b).toNat < 2048 := (unpackExponent b).isLt
  have hmant : (unpackMantissa b).toNat < 2 ^ 52 := (unpackMantissa b).isLt
  unfold UnpackedFloat.unpack
  simp only
  split
  · split <;> trivial
  · rename_i hones
    split
    · split
      · trivial
      · rename_i hz _
        rw [Encodable, hz]
        exact ⟨⟨hmant.trans (by norm_num), by decide, .inr rfl⟩, by decide⟩
    · rename_i hz
      have hne : (unpackExponent b).toNat ≠ 0 := fun h => hz (BitVec.eq_of_toNat_eq h)
      have hlast : (unpackExponent b).toNat ≠ 2047 := fun h => hones (BitVec.eq_of_toNat_eq h)
      rw [Encodable, toNat_one_append, exponentBias_add]
      unfold hiddenBit
      exact ⟨⟨by omega, by omega, .inl (by omega)⟩, by omega⟩

/-! ## Writing bits -/

theorem toNat_packComponents (s : Sign) (e : BitVec Format.binary64.exponentBits)
    (m : BitVec Format.binary64.mantissaBitsWithoutImplicit) :
    (packComponents .binary64 s e m).toNat =
      ((isNegative s).toNat * exponents + e.toNat) * hiddenBit + m.toNat := by
  have hs : s.toBitVec.toNat = (isNegative s).toNat := by cases s <;> rfl
  unfold packComponents
  rw [BitVec.toNat_append, ← Nat.shiftLeft_add_eq_or_of_lt m.isLt, BitVec.toNat_append,
    ← Nat.shiftLeft_add_eq_or_of_lt e.isLt, Nat.shiftLeft_eq, Nat.shiftLeft_eq, hs]
  rfl

/-- Bits that are put together are read as they were put. -/
theorem ofBits_packComponents (s : Sign) (e : BitVec Format.binary64.exponentBits)
    (m : BitVec Format.binary64.mantissaBitsWithoutImplicit) :
    View.ofBits (packComponents .binary64 s e m).toNat =
      if e.toNat + 1 = exponents then
        if m.toNat = 0 then .infinite (isNegative s) else .undefined
      else if e.toNat = 0 then .finite (isNegative s) m.toNat (-1074)
      else .finite (isNegative s) (hiddenBit + m.toNat) (e.toNat - 1075) := by
  have he : e.toNat < exponents := e.isLt
  have hm : m.toNat < hiddenBit := m.isLt
  have hneg : decide (hiddenBit * exponents ≤
      ((isNegative s).toNat * exponents + e.toNat) * hiddenBit + m.toNat) = isNegative s := by
    unfold hiddenBit exponents at *
    cases isNegative s
    · exact decide_eq_false (by rw [Bool.toNat_false]; omega)
    · exact decide_eq_true (by rw [Bool.toNat_true]; omega)
  have hexp : (((isNegative s).toNat * exponents + e.toNat) * hiddenBit + m.toNat) / hiddenBit %
      exponents = e.toNat := by
    rw [Nat.mul_comm, Nat.mul_add_div (by decide), Nat.div_eq_of_lt hm, Nat.add_zero,
      Nat.mul_comm, Nat.mul_add_mod, Nat.mod_eq_of_lt he]
  have hmant : (((isNegative s).toNat * exponents + e.toNat) * hiddenBit + m.toNat) % hiddenBit =
      m.toNat := by
    rw [Nat.mul_comm, Nat.mul_add_mod, Nat.mod_eq_of_lt hm]
  rw [toNat_packComponents, View.ofBits]
  simp only [hneg, hexp, hmant]

theorem view_ofModel_pack (f : UnpackedFloat) :
    view (.ofModel (.pack f)) = View.ofBits (UnpackedFloat.pack .binary64 f).toNat := rfl

theorem pack_finite (s : Sign) (m : ℕ) (e : ℤ) (hm : 0 < m) :
    UnpackedFloat.pack .binary64 (.finite s m e hm) =
      if 2048 ≤ (e + 1075).toNat + 1 then UnpackedFloat.packedInfinity .binary64 s
      else if m.log2 + 1 = 53 then packComponents .binary64 s (.ofNat 11 (e + 1075).toNat) (.ofNat 52 m)
      else packComponents .binary64 s 0 (.ofNat 52 m) := by
  rw [← exponentBias_add, ← add_assoc]
  rfl

theorem view_pack_infinity (s : Sign) :
    view (.ofModel (.pack (.infinity s))) = .infinite (isNegative s) := by
  rw [view_ofModel_pack, UnpackedFloat.pack, UnpackedFloat.packedInfinity, ofBits_packComponents]
  rfl

/-- What can be encoded keeps its meaning. -/
theorem view_pack {f : UnpackedFloat} (h : Encodable f) :
    view (.ofModel (.pack f)) = View.ofUnpacked f := by
  cases f with
  | notANumber =>
    rw [view_ofModel_pack, UnpackedFloat.pack, UnpackedFloat.packedNaN, ofBits_packComponents]
    rfl
  | infinity s => exact view_pack_infinity s
  | zero s =>
    rw [view_ofModel_pack, UnpackedFloat.pack, UnpackedFloat.packedZero, ofBits_packComponents]
    rfl
  | finite s m e hm =>
    obtain ⟨hfits, hmax⟩ := h
    have hmin := hfits.min_le
    have hlt := hfits.lt
    rw [view_ofModel_pack, pack_finite]
    have hsmall : ¬ 2048 ≤ (e + 1075).toNat + 1 := by omega
    rw [if_neg hsmall]
    by_cases hlog : m.log2 + 1 = 53
    · -- all 53 bits: the first of them is not stored
      have hbit : 2 ^ 52 ≤ m := (Nat.le_log2 hm.ne').1 (by omega)
      have hexp : (BitVec.ofNat 11 (e + 1075).toNat).toNat = (e + 1075).toNat :=
        Nat.mod_eq_of_lt (by omega)
      have hmant : hiddenBit + (BitVec.ofNat 52 m).toNat = m := by
        rw [BitVec.toNat_ofNat, hiddenBit]
        omega
      have hones : (e + 1075).toNat + 1 ≠ exponents := fun h => hsmall h.ge
      have hpos : (e + 1075).toNat ≠ 0 := by omega
      rw [if_pos hlog, ofBits_packComponents, hexp, if_neg hones, if_neg hpos, hmant, View.ofUnpacked]
      congr 1
      omega
    · have hbit : m < 2 ^ 52 := by
        have hle : m.log2 < 53 := (Nat.log2_lt hm.ne').2 hlt
        exact (Nat.log2_lt hm.ne').1 (by omega)
      have hmant : (BitVec.ofNat 52 m).toNat = m := Nat.mod_eq_of_lt hbit
      have hexp : e = -1074 := hfits.filled.resolve_left (not_le.2 hbit)
      rw [if_neg hlog, ofBits_packComponents, hmant, View.ofUnpacked, hexp]
      rfl

/-- From the limit on only the sign is kept. -/
theorem view_pack_of_large {s : Sign} {m : ℕ} {e : ℤ} (hm : 0 < m) (he : 971 < e) :
    view (.ofModel (.pack (.finite s m e hm))) = .infinite (isNegative s) := by
  have hlarge : 2048 ≤ (e + 1075).toNat + 1 := by omega
  rw [← view_pack_infinity s, view_ofModel_pack, view_ofModel_pack, pack_finite, if_pos hlarge]
  rfl

/-! ## Exact numbers -/

/-- The exact number that an unpacked one is. -/
def value (f : UnpackedFloat) : Extended := (View.ofUnpacked f).exact

theorem value_finite (s : Sign) (m : ℕ) (e : ℤ) (hm : 0 < m) :
    value (.finite s m e hm) = .finite (withSign (isNegative s) (m * 2 ^ e)) := rfl

theorem value_zero (s : Sign) : value (.zero s) = .finite 0 := by
  unfold value View.ofUnpacked View.exact withSign
  simp

theorem exact_eq (x : Float) : exact x = value x.toModel.unpack := by
  rw [exact, view_eq, value]

theorem encodable_toModel (x : Float) : Encodable x.toModel.unpack :=
  encodable_unpack x.toModel.toBits.toBitVec

theorem exact_pack_of_encodable {f : UnpackedFloat} (h : Encodable f) :
    exact (.ofModel (.pack f)) = value f := by
  rw [exact, view_pack h, value]

/-- An unpacked number is a point of the grid, with a sign and a magnitude. -/
inductive Holds (s : Sign) (v : ℚ) : UnpackedFloat → Prop where
  | zero (h : v = 0) : Holds s v (.zero s)
  | finite (m : ℕ) (e : ℤ) (hm : 0 < m) (h : v = m * 2 ^ e) (hfits : Grid.Fits m e) :
    Holds s v (.finite s m e hm)

theorem capped_withSign_of_large {v : ℚ} (h : Grid.limit ≤ v) (negative : Bool) :
    Extended.capped (withSign negative v) = .infinite negative := by
  have hpos := Grid.limit_pos
  cases negative with
  | false => exact if_pos h
  | true => exact (if_neg (by rw [withSign]; simp; linarith)).trans (if_pos (neg_le_neg h))

theorem capped_withSign_of_lt {v : ℚ} (h0 : 0 ≤ v) (h : v < Grid.limit) (negative : Bool) :
    Extended.capped (withSign negative v) = .finite (withSign negative v) := by
  have hpos := Grid.limit_pos
  cases negative with
  | false => exact Extended.capped_of_lt ((neg_lt_zero.2 hpos).trans_le h0) h
  | true => exact Extended.capped_of_lt (neg_lt_neg h) ((neg_nonpos.2 h0).trans_lt hpos)

/-- A point of the grid is put into bits as it is, up to the limit. -/
theorem exact_pack {s : Sign} {v : ℚ} {f : UnpackedFloat} (h : Holds s v f) :
    exact (.ofModel (.pack f)) = Extended.capped (withSign (isNegative s) v) := by
  cases h with
  | zero h =>
    subst h
    have henc : Encodable (.zero s) := trivial
    rw [exact_pack_of_encodable henc, value_zero, capped_withSign_of_lt le_rfl Grid.limit_pos]
    cases s <;> simp [isNegative, withSign]
  | finite m e hm h hfits =>
    subst h
    have hnonneg := Grid.point_nonneg m e
    by_cases he : e ≤ 971
    · have henc : Encodable (.finite s m e hm) := ⟨hfits, he⟩
      rw [exact_pack_of_encodable henc, value_finite,
        capped_withSign_of_lt hnonneg (hfits.lt_limit_iff.2 he)]
    · have hlarge := not_lt.1 fun hlt => he (hfits.lt_limit_iff.1 hlt)
      rw [exact, view_pack_of_large hm (not_le.1 he), capped_withSign_of_large hlarge]
      rfl

/-! ## Signs and order -/

theorem isNegative_neg (s : Sign) : isNegative (-s) = !isNegative s := by
  cases s <;> rfl

theorem withSign_not (negative : Bool) (v : ℚ) : withSign (!negative) v = -withSign negative v := by
  cases negative <;> simp [withSign]

theorem encodable_neg {f : UnpackedFloat} (h : Encodable f) : Encodable f.neg := by
  cases f with
  | finite s m e hm => exact h
  | _ => trivial

theorem value_neg (f : UnpackedFloat) : value f.neg = (value f).neg := by
  cases f with
  | notANumber => rfl
  | infinity s => cases s <;> rfl
  | zero s =>
    rw [UnpackedFloat.neg, value_zero, value_zero, Extended.neg, neg_zero]
  | finite s m e hm =>
    rw [UnpackedFloat.neg, value_finite, value_finite, isNegative_neg, withSign_not, Extended.neg]

theorem exact_neg (x : Float) : exact x.neg = (exact x).neg := by
  rw [exact_eq x, ← value_neg, ← exact_pack_of_encodable (encodable_neg (encodable_toModel x))]
  rfl

/-- Points of the grid are ordered by their exponents first. -/
theorem isLE_then_iff {m n : ℕ} {e f : ℤ} (hm : 0 < m) (hn : 0 < n) (hme : Grid.Fits m e)
    (hnf : Grid.Fits n f) :
    ((compare e f).then (compare m n)).isLE = true ↔ (m : ℚ) * 2 ^ e ≤ n * 2 ^ f := by
  rw [hme.le_iff hnf hm hn]
  rcases lt_trichotomy e f with h | rfl | h
  · rw [compare_lt_iff_lt.2 h]
    exact iff_of_true rfl (.inl h)
  · simp [Ordering.isLE_iff_ne_gt, compare_gt_iff_gt]
  · rw [compare_gt_iff_gt.2 h]
    exact iff_of_false Bool.false_ne_true (by omega)

theorem value_le {f g : UnpackedFloat} (hf : Encodable f) (hg : Encodable g) :
    f.le g = (value f).le (value g) := by
  cases f with
  | notANumber => cases g <;> rfl
  | infinity s =>
    cases g with
    | infinity t => cases s <;> cases t <;> rfl
    | _ => cases s <;> rfl
  | zero s =>
    rw [value_zero]
    cases g with
    | notANumber => rfl
    | infinity t => cases t <;> rfl
    | zero t =>
      rw [value_zero]
      rfl
    | finite t n f hn =>
      rw [value_finite]
      cases t with
      | negative => exact (decide_eq_false (not_le.2 (neg_lt_zero.2 (Grid.point_pos hn f)))).symm
      | positive => exact (decide_eq_true (Grid.point_pos hn f).le).symm
  | finite s m e hm =>
    rw [value_finite]
    cases g with
    | notANumber => cases s <;> rfl
    | infinity t => cases s <;> cases t <;> rfl
    | zero t =>
      rw [value_zero]
      cases s with
      | negative => exact (decide_eq_true (neg_lt_zero.2 (Grid.point_pos hm e)).le).symm
      | positive => exact (decide_eq_false (not_le.2 (Grid.point_pos hm e))).symm
    | finite t n f hn =>
      rw [value_finite]
      cases s with
      | negative =>
        cases t with
        | negative =>
          have hswap : ((compare e f).then (compare m n)).swap = (compare f e).then (compare n m) := by
            rw [Ordering.swap_then, ← Std.OrientedCmp.eq_swap, ← Std.OrientedCmp.eq_swap]
          have hle : UnpackedFloat.le (.finite .negative m e hm) (.finite .negative n f hn) =
            ((compare e f).then (compare m n)).swap.isLE := rfl
          rw [hle, hswap]
          exact Bool.eq_iff_iff.2 ((isLE_then_iff hn hm hg.1 hf.1).trans
            (neg_le_neg_iff.symm.trans decide_eq_true_iff.symm))
        | positive =>
          have hlt := (neg_lt_zero.2 (Grid.point_pos hm e)).trans (Grid.point_pos hn f)
          exact (decide_eq_true hlt.le).symm
      | positive =>
        cases t with
        | negative =>
          have hlt := (neg_lt_zero.2 (Grid.point_pos hn f)).trans (Grid.point_pos hm e)
          exact (decide_eq_false (not_le.2 hlt)).symm
        | positive =>
          exact Bool.eq_iff_iff.2 ((isLE_then_iff hm hn hf.1 hg.1).trans decide_eq_true_iff.symm)

/-- The order of doubles is the order of the exact numbers. -/
theorem le_eq (x y : Float) : x.le y = (exact x).le (exact y) := by
  rw [exact_eq, exact_eq, ← value_le (encodable_toModel x) (encodable_toModel y)]
  exact Bool.decide_coe _

theorem isFinite_iff (x : Float) : x.isFinite = true ↔ ∃ q, exact x = .finite q := by
  have h : x.isFinite = x.toModel.unpack.isFinite := rfl
  rw [exact_eq, h]
  cases x.toModel.unpack with
  | notANumber => exact iff_of_false Bool.false_ne_true fun ⟨_, h⟩ => by cases h
  | infinity s => exact iff_of_false Bool.false_ne_true fun ⟨_, h⟩ => by cases h
  | zero s => exact iff_of_true rfl ⟨_, rfl⟩
  | finite s m e hm => exact iff_of_true rfl ⟨_, rfl⟩

end Double
end Bilevel
