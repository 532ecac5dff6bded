import Bilevel.Decimal.Notation
import Bilevel.Decimal.Numeral
import Mathlib.Algebra.Order.Field.Rat
import Mathlib.Algebra.GroupWithZero.Basic
import Mathlib.Tactic.FieldSimp
import Mathlib.Tactic.Ring

/-!
# Bilevel.Proofs.Decimal.Reading

What is written as a decimal is read as the same number.

* `decimal?_write`: a written decimal is read again. The digits and the exponent may come back another
  way, but their value is the same.
* `ofText?_of_numeric`: a text of numeric characters has no blanks, no groups of digits and no digits
  of other scripts, so that reading it begins with its sign.
-/

namespace Bilevel

/-- The characters that written numbers consist of. -/
def isNumeric (c : Char) : Bool :=
  c.isDigit || ['+', '-', '.', 'e', 'i', 'n', 'f', 'a'].contains c

theorem isNumeric_of_isDigit {c : Char} (h : c.isDigit = true) : isNumeric c = true := by
  rw [isNumeric, h, Bool.true_or]

namespace Decimal

/-- The value of `digits * 10 ^ exponent`. -/
def value (digits : Nat) (exponent : Int) : ℚ := digits * 10 ^ exponent

theorem value_mul_pow (digits k : Nat) (exponent : Int) :
    value (digits * 10 ^ k) exponent = value digits (exponent + k) := by
  rw [value, value, zpow_add₀ (by norm_num), zpow_natCast]
  push_cast
  ring

theorem value_trim (digits : Nat) (exponent : Int) :
    value (trim digits exponent).1 (trim digits exponent).2 = value digits exponent := by
  fun_induction trim digits exponent with
  | case1 => simp [value]
  | case2 digits exponent hne hzero ih =>
    have hten : digits / 10 * 10 ^ 1 = digits := by omega
    rw [ih, ← hten, Nat.pow_one, Nat.mul_div_cancel _ (by norm_num), ← Nat.pow_one 10, value_mul_pow]
    rfl
  | case3 => rfl

theorem isDigit_of_mem_toDigits {n : Nat} {c : Char} (h : c ∈ Nat.toDigits 10 n) :
    c.isDigit = true :=
  Nat.isDigit_of_mem_toDigits (by norm_num) le_rfl h

theorem isDigit_of_mem_zeros {n : Nat} {c : Char} (h : c ∈ List.replicate n '0') :
    c.isDigit = true := by
  rw [List.eq_of_mem_replicate h]
  rfl

/-! ## The characters -/

theorem isNumeric_of_mem_exponentText {e : Int} {c : Char} (h : c ∈ exponentText e) :
    isNumeric c = true := by
  rcases List.mem_cons.1 h with rfl | h
  · split <;> rfl
  · rcases List.mem_append.1 h with h | h
    · exact isNumeric_of_isDigit (isDigit_of_mem_zeros h)
    · exact isNumeric_of_isDigit (isDigit_of_mem_toDigits h)

theorem isNumeric_of_mem_positional {ds : List Char} {point : Int} {c : Char}
    (hds : ∀ d ∈ ds, d.isDigit = true) (h : c ∈ positional ds point) : isNumeric c = true := by
  unfold positional at h
  split at h
  · simp only [List.mem_cons, List.mem_append] at h
    rcases h with rfl | rfl | h | h
    · rfl
    · rfl
    · exact isNumeric_of_isDigit (isDigit_of_mem_zeros h)
    · exact isNumeric_of_isDigit (hds c h)
  · split at h
    · simp only [List.mem_cons, List.mem_append, List.not_mem_nil, or_false] at h
      rcases h with (h | h) | rfl | rfl
      · exact isNumeric_of_isDigit (hds c h)
      · exact isNumeric_of_isDigit (isDigit_of_mem_zeros h)
      · rfl
      · rfl
    · simp only [List.mem_cons, List.mem_append] at h
      rcases h with h | rfl | h
      · exact isNumeric_of_isDigit (hds c (List.mem_of_mem_take h))
      · rfl
      · exact isNumeric_of_isDigit (hds c (List.mem_of_mem_drop h))

theorem isNumeric_of_mem_scientific {ds : List Char} {e : Int} {c : Char}
    (hds : ∀ d ∈ ds, d.isDigit = true) (h : c ∈ scientific ds e) : isNumeric c = true := by
  unfold scientific at h
  simp only [List.mem_append, List.mem_cons] at h
  rcases h with (h | h) | rfl | h
  · exact isNumeric_of_isDigit (hds c (List.mem_of_mem_take h))
  · split at h
    · cases h
    · rcases List.mem_cons.1 h with rfl | h
      · rfl
      · exact isNumeric_of_isDigit (hds c (List.mem_of_mem_drop h))
  · rfl
  · exact isNumeric_of_mem_exponentText h

theorem isNumeric_of_mem_write {digits : Nat} {exponent : Int} {c : Char}
    (h : c ∈ write digits exponent) : isNumeric c = true := by
  unfold write at h
  simp only at h
  split at h
  · exact isNumeric_of_mem_positional (fun d => isDigit_of_mem_toDigits) h
  · exact isNumeric_of_mem_scientific (fun d => isDigit_of_mem_toDigits) h

/-- A written decimal begins with a digit. -/
theorem exists_write_eq_cons (digits : Nat) (exponent : Int) :
    ∃ c cs, write digits exponent = c :: cs ∧ c.isDigit = true := by
  unfold write
  simp only
  generalize hn : (trim digits exponent).1 = n
  obtain ⟨d, ds, hds⟩ := List.exists_cons_of_ne_nil (Nat.toDigits_ne_nil (b := 10) (n := n))
  have hd : d.isDigit = true := isDigit_of_mem_toDigits (n := n) (hds ▸ List.mem_cons_self)
  rw [hds]
  split
  · unfold positional
    split
    · exact ⟨'0', _, rfl, rfl⟩
    · split
      · exact ⟨d, _, rfl, hd⟩
      · rename_i hpoint _
        obtain ⟨k, hk⟩ : ∃ k, ((trim digits exponent).2 + ((d :: ds).length : Int)).toNat = k + 1 :=
          Nat.exists_eq_succ_of_ne_zero (by omega)
        rw [hk, List.take_succ_cons]
        exact ⟨d, _, rfl, hd⟩
  · exact ⟨d, _, rfl, hd⟩

end Decimal

namespace Numeral

open Decimal Text

/-! ## Digits, a point and an exponent -/

theorem span_digits {ds : List Char} (rest : List Char) (hds : ∀ c ∈ ds, c.isDigit = true)
    (hrest : ∀ c ∈ rest.head?, c.isDigit = false) :
    (ds ++ rest).span Char.isDigit = (ds, rest) := by
  rw [List.span_eq_takeWhile_dropWhile, List.takeWhile_append_of_pos hds,
    List.dropWhile_append_of_pos hds]
  cases rest with
  | nil => simp
  | cons c rest =>
    have hc : c.isDigit = false := hrest c rfl
    simp [hc]

theorem ofDigits_toDigits (n : Nat) : ofDigits (Nat.toDigits 10 n) = n :=
  Nat.ofDigitChars_toDigits (by norm_num) le_rfl

theorem ofDigits_zeros_append (k : Nat) (ds : List Char) :
    ofDigits (List.replicate k '0' ++ ds) = ofDigits ds := by
  rw [ofDigits, Nat.ofDigitChars_append, Nat.ofDigitChars_replicate_zero, Nat.mul_zero]
  rfl

theorem ofDigits_append_zeros (ds : List Char) (k : Nat) :
    ofDigits (ds ++ List.replicate k '0') = ofDigits ds * 10 ^ k := by
  rw [ofDigits, Nat.ofDigitChars_append, Nat.ofDigitChars_replicate_zero, Nat.mul_comm]
  rfl

/-- The digits of an exponent, with at least two of them. -/
theorem exponentText_eq (e : Int) : ∃ ds : List Char, ds ≠ [] ∧ (∀ c ∈ ds, c.isDigit = true) ∧
    ofDigits ds = e.natAbs ∧ exponentText e = (if e < 0 then '-' else '+') :: ds := by
  refine ⟨_, ?_, fun c hc => ?_, ?_, rfl⟩
  · exact List.append_ne_nil_of_right_ne_nil _ Nat.toDigits_ne_nil
  · exact (List.mem_append.1 hc).elim isDigit_of_mem_zeros isDigit_of_mem_toDigits
  · rw [ofDigits_zeros_append, ofDigits_toDigits]

theorem exponent?_exponentText (e : Int) : exponent? ('e' :: exponentText e) = some e := by
  obtain ⟨ds, hne, hdigits, hvalue, htext⟩ := exponentText_eq e
  have hempty : ds.isEmpty = false := List.isEmpty_eq_false_iff.2 hne
  have hall : ds.all Char.isDigit = true := List.all_eq_true.2 hdigits
  rw [htext]
  by_cases he : e < 0
  · rw [if_pos he, exponent?, splitSign]
    simp only [hempty, hall, hvalue]
    exact congrArg some (show -(e.natAbs : Int) = e by omega)
  · rw [if_neg he, exponent?, splitSign]
    simp only [hempty, hall, hvalue]
    exact congrArg some (show (e.natAbs : Int) = e by omega)

/-- A decimal whose point stands between digits. -/
theorem decimal?_point (whole fraction tail : List Char) {e : Int} (negative : Bool)
    (hwhole : ∀ c ∈ whole, c.isDigit = true) (hfraction : ∀ c ∈ fraction, c.isDigit = true)
    (hne : whole ≠ []) (htail : ∀ c ∈ tail.head?, c.isDigit = false)
    (he : exponent? tail = some e) :
    decimal? negative (whole ++ '.' :: (fraction ++ tail)) =
      some (.decimal negative (ofDigits (whole ++ fraction)) (e - fraction.length)) := by
  have hspan := span_digits ('.' :: (fraction ++ tail)) hwhole (by simp)
  have hempty : whole.isEmpty = false := List.isEmpty_eq_false_iff.2 hne
  rw [decimal?, hspan]
  simp only [splitFraction, span_digits tail hfraction htail, hempty, he]
  rfl

/-- A decimal without a point. -/
theorem decimal?_whole {whole tail : List Char} {e : Int} (negative : Bool)
    (hwhole : ∀ c ∈ whole, c.isDigit = true) (hne : whole ≠ [])
    (htail : ∀ c ∈ tail.head?, c.isDigit = false ∧ c ≠ '.') (he : exponent? tail = some e) :
    decimal? negative (whole ++ tail) = some (.decimal negative (ofDigits whole) e) := by
  have hspan := span_digits tail hwhole fun c hc => (htail c hc).1
  have hempty : whole.isEmpty = false := List.isEmpty_eq_false_iff.2 hne
  have hsplit : splitFraction tail = ([], tail) := by
    unfold splitFraction
    split
    · exact absurd rfl (htail '.' rfl).2
    · rfl
  rw [decimal?, hspan]
  simp only [hsplit, hempty, he, List.append_nil]
  exact congrArg (fun k : Int => some (Numeral.decimal negative (ofDigits whole) k)) (Int.sub_zero e)

/-- The written decimal is read, and its value is that of the digits with their exponent. -/
def Writes (cs : List Char) (v : ℚ) : Prop :=
  ∀ negative, ∃ digits exponent,
    decimal? negative cs = some (.decimal negative digits exponent) ∧ value digits exponent = v

theorem writes_positional {n : Nat} {e point : Int}
    (hpoint : point = e + (Nat.toDigits 10 n).length) :
    Writes (positional (Nat.toDigits 10 n) point) (value n e) := by
  intro negative
  have hds : ∀ c ∈ Nat.toDigits 10 n, c.isDigit = true := fun c => isDigit_of_mem_toDigits
  have hne : Nat.toDigits 10 n ≠ [] := Nat.toDigits_ne_nil
  have hn := ofDigits_toDigits n
  generalize Nat.toDigits 10 n = ds at hds hne hn hpoint
  have hend : ∀ c ∈ ([] : List Char).head?, c.isDigit = false := fun c hc => by cases hc
  unfold positional
  split
  · -- all digits stand after the point
    have hfraction : ∀ c ∈ List.replicate (-point).toNat '0' ++ ds, c.isDigit = true :=
      fun c hc => (List.mem_append.1 hc).elim isDigit_of_mem_zeros (hds c)
    have h := decimal?_point ['0'] _ [] negative (by simp) hfraction (by simp) hend rfl
    rw [List.append_nil] at h
    refine ⟨_, _, h, ?_⟩
    rw [← List.append_assoc, show ['0'] ++ List.replicate (-point).toNat '0' =
      List.replicate ((-point).toNat + 1) '0' from rfl, ofDigits_zeros_append, hn, List.length_append,
      List.length_replicate]
    congr 1
    push_cast
    omega
  · split
    · -- all digits stand before the point, and perhaps some zeros
      have hwhole : ∀ c ∈ ds ++ List.replicate (point.toNat - ds.length) '0', c.isDigit = true :=
        fun c hc => (List.mem_append.1 hc).elim (hds c) isDigit_of_mem_zeros
      have h := decimal?_point _ ['0'] [] negative hwhole (by simp)
        (List.append_ne_nil_of_left_ne_nil hne _) hend rfl
      refine ⟨_, _, h, ?_⟩
      rw [show ['0'] = List.replicate 1 '0' from rfl, List.append_assoc, List.replicate_append_replicate,
        ofDigits_append_zeros, hn, value_mul_pow, List.length_replicate]
      congr 1
      push_cast
      omega
    · -- the point stands between two digits
      have hlength : point.toNat < ds.length := by omega
      have h := decimal?_point (ds.take point.toNat) (ds.drop point.toNat) [] negative
        (fun c hc => hds c (List.mem_of_mem_take hc)) (fun c hc => hds c (List.mem_of_mem_drop hc))
        (List.ne_nil_of_length_pos (by rw [List.length_take]; omega)) hend rfl
      rw [List.append_nil] at h
      refine ⟨_, _, h, ?_⟩
      rw [List.take_append_drop, hn, List.length_drop]
      congr 1
      omega

theorem writes_scientific {n : Nat} {e point : Int}
    (hpoint : point = e + (Nat.toDigits 10 n).length) :
    Writes (scientific (Nat.toDigits 10 n) (point - 1)) (value n e) := by
  intro negative
  have hds : ∀ c ∈ Nat.toDigits 10 n, c.isDigit = true := fun c => isDigit_of_mem_toDigits
  have hpos : 0 < (Nat.toDigits 10 n).length := Nat.length_toDigits_pos
  have hn := ofDigits_toDigits n
  generalize Nat.toDigits 10 n = ds at hds hpos hn hpoint
  have htake : ∀ c ∈ ds.take 1, c.isDigit = true := fun c hc => hds c (List.mem_of_mem_take hc)
  have hne : ds.take 1 ≠ [] := List.ne_nil_of_length_pos (by rw [List.length_take]; omega)
  have hexponent := exponent?_exponentText (point - 1)
  unfold scientific
  simp only
  split
  · rename_i hlength
    have h := decimal?_whole negative htake hne
      (fun c hc => by cases hc; exact ⟨rfl, by decide⟩) hexponent
    rw [List.append_nil]
    refine ⟨_, _, h, ?_⟩
    rw [List.take_of_length_le hlength, hn]
    congr 1
    omega
  · have h := decimal?_point _ _ _ negative htake
      (fun c hc => hds c (List.mem_of_mem_drop (i := 1) hc)) hne (fun c hc => by cases hc; rfl) hexponent
    rw [List.append_assoc, List.cons_append]
    refine ⟨_, _, h, ?_⟩
    rw [List.take_append_drop, hn, List.length_drop]
    congr 1
    omega

theorem writes_write {n : Nat} (e : Int) : Writes (write n e) (value n e) := by
  rw [write, ← value_trim n e]
  simp only
  split
  · exact writes_positional rfl
  · exact writes_scientific rfl

/-! ## Whole texts -/

theorem toNat_of_isDigit {c : Char} (h : c.isDigit = true) : 48 ≤ c.toNat ∧ c.toNat ≤ 57 := by
  simp only [Char.isDigit, Bool.and_eq_true, decide_eq_true_eq] at h
  exact ⟨h.1, h.2⟩

/-- A numeric character is a seven-bit one and no blank, and it does not join digits. -/
theorem isNumeric_spec {c : Char} (h : isNumeric c = true) :
    plain? c = some c ∧ isBlank c = false ∧ c ≠ '_' := by
  rcases (Bool.or_eq_true _ _).mp h with h | h
  · obtain ⟨hlow, hhigh⟩ := toNat_of_isDigit h
    refine ⟨if_pos (by omega), ?_, ?_⟩
    · have hspace : c ≠ ' ' := by
        rintro rfl
        exact absurd hlow (by decide)
      simp only [isBlank, hspace, decide_false, Bool.false_or, Bool.and_eq_false_iff,
        decide_eq_false_iff_not]
      omega
    · rintro rfl
      exact absurd hhigh (by decide)
  · simp only [List.contains_iff_mem, List.mem_cons, List.not_mem_nil, or_false] at h
    rcases h with rfl | rfl | rfl | rfl | rfl | rfl | rfl | rfl <;> decide

theorem mapM_plain? {cs : List Char} (h : ∀ c ∈ cs, isNumeric c = true) :
    cs.mapM plain? = some cs := by
  induction cs with
  | nil => rfl
  | cons c cs ih =>
    rw [List.mapM_cons, (isNumeric_spec (h c List.mem_cons_self)).1,
      ih fun d hd => h d (List.mem_cons_of_mem c hd)]
    rfl

theorem strip_of_numeric {cs : List Char} (h : ∀ c ∈ cs, isNumeric c = true) : strip cs = cs := by
  have hkeep : ∀ ds : List Char, (∀ c ∈ ds, isNumeric c = true) → ds.dropWhile isBlank = ds := by
    intro ds hds
    cases ds with
    | nil => rfl
    | cons c ds =>
      rw [List.dropWhile_cons_of_neg]
      rw [(isNumeric_spec (hds c List.mem_cons_self)).2.1]
      exact Bool.false_ne_true
  rw [strip, hkeep cs h, hkeep cs.reverse fun c hc => h c (List.mem_reverse.1 hc),
    List.reverse_reverse]

theorem joinGroups?_of_numeric {cs : List Char} (h : ∀ c ∈ cs, isNumeric c = true)
    (afterDigit : Bool) : joinGroups? afterDigit cs = some cs := by
  induction cs generalizing afterDigit with
  | nil => rfl
  | cons c cs ih =>
    have hc : c ≠ '_' := (isNumeric_spec (h c List.mem_cons_self)).2.2
    have hrest := ih (fun d hd => h d (List.mem_cons_of_mem c hd)) c.isDigit
    rw [joinGroups?]
    · rw [if_neg hc, hrest]
      rfl
    · intro _ _ heq
      exact absurd heq hc

/-- Reading a numeric text begins with its sign. -/
theorem ofText?_of_numeric {s : String} (h : ∀ c ∈ s.toList, isNumeric c = true) :
    ofText? s = unsigned? (splitSign s.toList).1 (splitSign s.toList).2 := by
  rw [ofText?, mapM_plain? h]
  simp only [Option.bind_eq_bind, Option.bind_some, strip_of_numeric h,
    joinGroups?_of_numeric h]

theorem toLower_of_isDigit {c : Char} (h : c.isDigit = true) : c.toLower = c := by
  have hhigh : c.val.toNat ≤ 57 := (toNat_of_isDigit h).2
  refine dif_neg fun hletter => ?_
  have hlow : 65 ≤ c.val.toNat := hletter.1
  omega

/-- What begins with a digit is none of the words. -/
theorem unsigned?_of_digit {c : Char} {cs : List Char} (h : c.isDigit = true) (negative : Bool) :
    unsigned? negative (c :: cs) = decimal? negative (c :: cs) := by
  have hword : ∀ s : String, s.toList.head? ≠ some c →
      String.ofList ((c :: cs).map Char.toLower) ≠ s := by
    rintro s hs rfl
    rw [String.toList_ofList, List.map_cons, toLower_of_isDigit h] at hs
    exact hs rfl
  have hletter : ∀ d : Char, d.isDigit = false → some d ≠ some c := by
    rintro d hd heq
    cases heq
    rw [h] at hd
    cases hd
  have hinf := hword "inf" (hletter 'i' rfl)
  have hinfinity := hword "infinity" (hletter 'i' rfl)
  have hnan := hword "nan" (hletter 'n' rfl)
  simp only [unsigned?, hinf, hinfinity, hnan, decide_false, Bool.or_self]
  rfl

end Numeral
end Bilevel
