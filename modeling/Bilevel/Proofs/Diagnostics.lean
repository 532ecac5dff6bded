import Bilevel.Proofs.Checking
import Bilevel.Proofs.Comparing
import Bilevel.Proofs.States

/-!
# Bilevel.Proofs.Diagnostics

What a check logs.

* `RowBroken`, `BoundBroken` and `FirstFractional` say of single rows, bounds and integer variables that a
  point fails them. `rowBroken_iff`: the rows are the ones that a check adds up.
* `UpperRejects` and `LowerRejects` say which condition is the first that a point fails. `Rejects` puts
  them together: the lower level counts only where it is asked for, and beside the upper level only
  after that has accepted.
* `upperVerdict_eq_some_iff`, `lowerVerdict_eq_some_iff`, `check_eq_some_iff`: rejections are just these.
* `perform_check_log`: a check logs one line for a rejection, which names this condition, and nothing
  otherwise.
-/

namespace Bilevel

variable {α : Type} [Scalar α]

namespace Program

open Linear Scalar

/-! ## Rows -/

/-- What one of `count` rows comes to at a point: its products are added up from zero. Where there is a
single coordinate, a single row is only multiplied, and of several rows each has its product unless the
coordinate is zero. -/
def rowValue (count : Nat) (r x : Row α) : α :=
  match r, x with
  | [a], [w] =>
    if count = 1 then mul w a else if eq w zero then zero else add zero (mul w a)
  | r, x => (r.zipWith mul x).foldl add zero

/-- How far a row of both levels' coefficients exceeds its right-hand side at a point. -/
def overshoot (m n : Rows α) (x y : Row α) (r s : Row α) (c : α) : α :=
  sub (add (rowValue m.length r x) (rowValue n.length s y)) c

/-- Row by row, how far the right-hand sides are exceeded. -/
structure Overshoots (m n : Rows α) (rhs x y row : Row α) : Prop where
  length_eq : row.length = rhs.length
  entry : ∀ (i : Nat) (r s : Row α) (c : α), m[i]? = some r → n[i]? = some s → rhs[i]? = some c →
    row[i]? = some (overshoot m n x y r s c)

/-- Some row exceeds its right-hand side by more than the tolerance. -/
def RowBroken (m n : Rows α) (rhs x y : Row α) : Tolerance α → Prop
  | .number eps => ∃ (i : Nat) (r s : Row α) (c : α), m[i]? = some r ∧ n[i]? = some s ∧
      rhs[i]? = some c ∧ le (overshoot m n x y r s c) eps = false
  | .array eps => ∃ row, Overshoots m n rhs x y row ∧ (Tolerance.array eps).ExceededBy row

theorem sum_eq_foldl {r : Row α} (h : r.length ≠ 1) : sum r = r.foldl add zero := by
  unfold sum
  split
  · exact absurd rfl h
  · rfl

theorem rowValue_of_length_ne {x : Row α} (hx : x.length ≠ 1) (count : Nat) (r : Row α) :
    rowValue count r x = (r.zipWith mul x).foldl add zero := by
  unfold rowValue
  split
  · exact absurd rfl hx
  · rfl

/-- With several coordinates, or none, each row is multiplied for itself. -/
theorem apply_of_length_ne {m : Rows α} {x : Row α} (hx : x.length ≠ 1)
    (hm : ∀ r ∈ m, r.length = x.length) : apply m x = m.map fun r => rowValue m.length r x := by
  have happly : apply m x = m.map fun r => dot r x := by
    unfold apply
    split
    · exact absurd rfl hx
    · rfl
  rw [happly]
  refine List.map_congr_left fun r hr => ?_
  have hlength : (r.zipWith mul x).length ≠ 1 := by
    rw [List.length_zipWith, hm r hr, Nat.min_self]
    exact hx
  rw [rowValue_of_length_ne hx, dot, sum_eq_foldl hlength]

theorem scaled_of_length_ne {as : Row α} (h : as.length ≠ 1) (w : α) :
    scaled w as = as.map fun a => if eq w zero then zero else add zero (mul w a) := by
  unfold scaled
  split
  · exact absurd rfl h
  · rfl

/-- With a single coordinate the only column is scaled. -/
theorem apply_singleton {m : Rows α} (hm : ∀ r ∈ m, r.length = 1) (w : α) :
    apply m [w] = m.map fun r => rowValue m.length r [w] := by
  have happly : apply m [w] = scaled w (column m 0) := rfl
  rw [happly]
  by_cases hcount : m.length = 1
  · obtain ⟨r, rfl⟩ := List.length_eq_one_iff.1 hcount
    obtain ⟨a, rfl⟩ := List.length_eq_one_iff.1 (hm r List.mem_cons_self)
    rfl
  · rw [scaled_of_length_ne (by rw [column, List.length_map]; exact hcount), column, List.map_map]
    refine List.map_congr_left fun r hr => ?_
    obtain ⟨a, rfl⟩ := List.length_eq_one_iff.1 (hm r hr)
    rw [rowValue, if_neg hcount]
    rfl

theorem apply_eq_map {m : Rows α} {x : Row α} (hm : ∀ r ∈ m, r.length = x.length) :
    apply m x = m.map fun r => rowValue m.length r x := by
  by_cases hx : x.length = 1
  · obtain ⟨w, rfl⟩ := List.length_eq_one_iff.1 hx
    exact apply_singleton hm w
  · exact apply_of_length_ne hx hm

section Excess

variable {m n : Rows α} {rhs x y : Row α} (hm : m.HasShape rhs.length x.length)
  (hn : n.HasShape rhs.length y.length)

include hm hn

theorem overshoots_excess : Overshoots m n rhs x y (excess m n rhs x y) where
  length_eq := by
    rw [excess, List.length_map, List.length_zip, List.length_zip, length_apply, length_apply,
      hm.length_eq, hn.length_eq, Nat.min_self, Nat.min_self]
  entry i r s c hr hs hc := by
    have ha : (apply m x)[i]? = some (rowValue m.length r x) := by
      rw [apply_eq_map hm.row_length, List.getElem?_map, hr]
      rfl
    have hb : (apply n y)[i]? = some (rowValue n.length s y) := by
      rw [apply_eq_map hn.row_length, List.getElem?_map, hs]
      rfl
    have hzip : ((apply m x).zip ((apply n y).zip rhs))[i]? =
        some (rowValue m.length r x, rowValue n.length s y, c) :=
      List.getElem?_zip_eq_some.2 ⟨ha, List.getElem?_zip_eq_some.2 ⟨hb, hc⟩⟩
    rw [excess, List.getElem?_map, hzip]
    rfl

/-- The rows that a check adds up are the ones that are told by index. -/
theorem overshoots_iff {row : Row α} :
    Overshoots m n rhs x y row ↔ row = excess m n rhs x y := by
  have hexcess := overshoots_excess hm hn
  refine ⟨fun h => List.ext_getElem? fun i => ?_, fun h => h ▸ hexcess⟩
  by_cases hi : i < rhs.length
  · have hr : m[i]? = some _ := List.getElem?_eq_getElem (hm.length_eq.symm ▸ hi)
    have hs : n[i]? = some _ := List.getElem?_eq_getElem (hn.length_eq.symm ▸ hi)
    have hc : rhs[i]? = some _ := List.getElem?_eq_getElem hi
    rw [h.entry i _ _ _ hr hs hc, hexcess.entry i _ _ _ hr hs hc]
  · rw [List.getElem?_eq_none (by rw [h.length_eq]; omega),
      List.getElem?_eq_none (by rw [hexcess.length_eq]; omega)]

theorem exists_of_mem_excess {a : α} (ha : a ∈ excess m n rhs x y) :
    ∃ (i : Nat) (r s : Row α) (c : α), m[i]? = some r ∧ n[i]? = some s ∧ rhs[i]? = some c ∧
      a = overshoot m n x y r s c := by
  have hexcess := overshoots_excess hm hn
  obtain ⟨i, hi⟩ := List.mem_iff_getElem?.1 ha
  have hlt : i < rhs.length := hexcess.length_eq ▸ (List.getElem?_eq_some_iff.1 hi).1
  have hr : m[i]? = some _ := List.getElem?_eq_getElem (hm.length_eq.symm ▸ hlt)
  have hs : n[i]? = some _ := List.getElem?_eq_getElem (hn.length_eq.symm ▸ hlt)
  have hc : rhs[i]? = some _ := List.getElem?_eq_getElem hlt
  refine ⟨i, _, _, _, hr, hs, hc, ?_⟩
  exact Option.some.inj (hi.symm.trans (hexcess.entry i _ _ _ hr hs hc))

theorem rowBroken_iff {t : Tolerance α} :
    RowBroken m n rhs x y t ↔ t.ExceededBy (excess m n rhs x y) := by
  cases t with
  | number eps =>
    constructor
    · rintro ⟨i, r, s, c, hr, hs, hc, hle⟩
      exact ⟨_, List.mem_of_getElem? ((overshoots_excess hm hn).entry i r s c hr hs hc), hle⟩
    · rintro ⟨a, ha, hle⟩
      obtain ⟨i, r, s, c, hr, hs, hc, rfl⟩ := exists_of_mem_excess hm hn ha
      exact ⟨i, r, s, c, hr, hs, hc, hle⟩
  | array eps =>
    constructor
    · rintro ⟨row, hrow, h⟩
      exact (overshoots_iff hm hn).1 hrow ▸ h
    · exact fun h => ⟨_, overshoots_excess hm hn, h⟩

/-- All rows hold up to a number. -/
theorem not_rowBroken_iff {eps : α} :
    ¬RowBroken m n rhs x y (.number eps) ↔ ∀ a ∈ excess m n rhs x y, le a eps = true := by
  rw [rowBroken_iff hm hn, Tolerance.ExceededBy]
  simp only [not_exists, not_and, Bool.not_eq_false]

end Excess

/-! ## Bounds -/

/-- Some coordinate is outside one of its bounds by more than the tolerance. -/
def BoundBroken (box : Box α) (v : Row α) (eps : α) : Prop :=
  ∃ (i : Nat) (a : α), v[i]? = some a ∧
    ((∃ low, box.lower[i]? = some low ∧ le (neg eps) (sub a low) = false) ∨
      ∃ high, box.upper[i]? = some high ∧ le (sub a high) eps = false)

theorem boundsHold_eq_false_iff {box : Box α} {v : Row α} {eps : α} :
    boundsHold box v eps = false ↔ BoundBroken box v eps := by
  rw [boundsHold, Bool.and_eq_false_iff, List.all_eq_false, List.all_eq_false]
  constructor
  · rintro (⟨⟨a, low⟩, hmem, hle⟩ | ⟨⟨a, high⟩, hmem, hle⟩)
    · obtain ⟨i, hi⟩ := List.mem_iff_getElem?.1 hmem
      obtain ⟨ha, hlow⟩ := List.getElem?_zip_eq_some.1 hi
      exact ⟨i, a, ha, .inl ⟨low, hlow, Bool.eq_false_iff.2 hle⟩⟩
    · obtain ⟨i, hi⟩ := List.mem_iff_getElem?.1 hmem
      obtain ⟨ha, hhigh⟩ := List.getElem?_zip_eq_some.1 hi
      exact ⟨i, a, ha, .inr ⟨high, hhigh, Bool.eq_false_iff.2 hle⟩⟩
  · rintro ⟨i, a, ha, ⟨low, hlow, hle⟩ | ⟨high, hhigh, hle⟩⟩
    · exact .inl ⟨(a, low), List.mem_iff_getElem?.2 ⟨i, List.getElem?_zip_eq_some.2 ⟨ha, hlow⟩⟩,
        Bool.eq_false_iff.1 hle⟩
    · exact .inr ⟨(a, high), List.mem_iff_getElem?.2 ⟨i, List.getElem?_zip_eq_some.2 ⟨ha, hhigh⟩⟩,
        Bool.eq_false_iff.1 hle⟩

theorem boundsHold_eq_true_iff {box : Box α} {v : Row α} {eps : α} :
    boundsHold box v eps = true ↔ ¬BoundBroken box v eps := by
  rw [← boundsHold_eq_false_iff, Bool.not_eq_false]

/-! ## Integer variables -/

/-- The coordinate that an index in range names. As an index yes is one. -/
def CoordinateAt (x : Row α) (j : Datum α) (v : α) : Prop :=
  ∃ k : Nat, (j = .int (k + 1 : Nat) ∨ (j = .bool true ∧ k = 0)) ∧ x[k]? = some v

/-- A number lies this far from the integer that is nearest to it. -/
def FarFromInteger (v far : α) : Prop :=
  ∃ n r, nearest? v = some n ∧ ofInt? n = some r ∧
    far = if le zero (sub v r) then sub v r else neg (sub v r)

/-- The variable with this index has a value, and it is this far from an integer. -/
def DistanceAt (x : Row α) (j : Datum α) (v far : α) : Prop :=
  CoordinateAt x j v ∧ FarFromInteger v far

/-- The first index whose variable is farther from an integer than the tolerance, with its value. -/
def FirstFractional (x : Row α) (eps : α) (J : List (Datum α)) (j : Datum α) (v : α) : Prop :=
  ∃ before after far, J = before ++ j :: after ∧
    (∀ k ∈ before, ∃ w near, DistanceAt x k w near ∧ lt eps near = false) ∧
    DistanceAt x j v far ∧ lt eps far = true

theorem coordinateAt_iff {n : Nat} {x : Row α} {j : Datum α} {v : α}
    (hj : j.between? 1 n = some true) :
    CoordinateAt x j v ↔ (position? j).bind (fun i => x[i]?) = some v := by
  cases j with
  | bool b =>
    cases b with
    | false => simp [Datum.between?] at hj
    | true => simp [CoordinateAt, position?]
  | int k =>
    simp only [Datum.between?, Option.some.injEq, Bool.and_eq_true, decide_eq_true_eq] at hj
    simp only [CoordinateAt, position?, Option.bind_some, Datum.int.injEq, reduceCtorEq, false_and,
      or_false]
    constructor
    · rintro ⟨i, rfl, hv⟩
      rw [← hv]
      congr 1
      omega
    · exact fun h => ⟨(k - 1).toNat, by omega, h⟩
  | _ => simp [CoordinateAt, position?]

theorem farFromInteger_iff {v far : α} : FarFromInteger v far ↔ distance? v = some far := by
  rw [distance?]
  constructor
  · rintro ⟨n, r, hn, hr, rfl⟩
    simp only [bind, Option.bind, hn, hr]
    rfl
  · intro h
    obtain ⟨n, hn, h⟩ := Option.bind_eq_some_iff.1 h
    obtain ⟨r, hr, h⟩ := Option.bind_eq_some_iff.1 h
    exact ⟨n, r, hn, hr, (Option.some.inj h).symm⟩

theorem firstFractional_of_distanceAt {n : Nat} {x : Row α} {eps : α} {j : Datum α}
    {J : List (Datum α)} {v far : α} (hj : j.between? 1 n = some true) (h : DistanceAt x j v far) :
    firstFractional x eps (j :: J) =
      if lt eps far then .ok (some (.fractional j v)) else firstFractional x eps J := by
  rw [firstFractional_cons, (coordinateAt_iff hj).1 h.1]
  simp only [farFromInteger_iff.1 h.2]
  rfl

/-- Without a distance the integer variables cannot be gone through. -/
theorem exists_distanceAt {n : Nat} {x : Row α} {eps : α} {j : Datum α} {J : List (Datum α)}
    {r : Option (Rejection α)} (hj : j.between? 1 n = some true)
    (h : firstFractional x eps (j :: J) = .ok r) : ∃ v far, DistanceAt x j v far := by
  rw [firstFractional_cons] at h
  cases hv : (position? j).bind fun i => x[i]? with
  | none =>
    rw [hv] at h
    cases h
  | some v =>
    simp only [hv] at h
    cases hfar : distance? v with
    | none =>
      rw [hfar] at h
      cases h
    | some far => exact ⟨v, far, (coordinateAt_iff hj).2 hv, farFromInteger_iff.2 hfar⟩

theorem firstFractional_eq_some_iff {n : Nat} {x : Row α} {eps : α} {J : List (Datum α)}
    {r : Rejection α} (hJ : ∀ j ∈ J, j.between? 1 n = some true) :
    firstFractional x eps J = .ok (some r) ↔
      ∃ j v, r = .fractional j v ∧ FirstFractional x eps J j v := by
  induction J with
  | nil =>
    refine iff_of_false (fun h => by cases h) ?_
    rintro ⟨j, v, -, before, after, far, hJ, -⟩
    cases before <;> cases hJ
  | cons k J ih =>
    obtain ⟨hk, hJ⟩ := List.forall_mem_cons.1 hJ
    constructor
    · intro h
      obtain ⟨w, near, hdistance⟩ := exists_distanceAt hk h
      rw [firstFractional_of_distanceAt hk hdistance] at h
      split at h
      · rename_i hfar
        cases h
        exact ⟨k, w, rfl, [], J, near, rfl, by simp, hdistance, hfar⟩
      · rename_i hnear
        obtain ⟨j, v, rfl, before, after, far, rfl, hbefore, hj, hfar⟩ := (ih hJ).1 h
        refine ⟨j, v, rfl, k :: before, after, far, rfl, ?_, hj, hfar⟩
        exact List.forall_mem_cons.2 ⟨⟨w, near, hdistance, Bool.eq_false_iff.2 hnear⟩, hbefore⟩
    · rintro ⟨j, v, rfl, before, after, far, hsplit, hbefore, hj, hfar⟩
      cases before with
      | nil =>
        cases hsplit
        rw [firstFractional_of_distanceAt hk hj, if_pos hfar]
      | cons k' before =>
        cases hsplit
        obtain ⟨⟨w, near, hdistance, hnear⟩, hrest⟩ := List.forall_mem_cons.1 hbefore
        rw [firstFractional_of_distanceAt hk hdistance, if_neg (Bool.eq_false_iff.1 hnear)]
        exact (ih hJ).2 ⟨j, v, rfl, before, after, far, rfl, hrest, hj, hfar⟩

theorem indicesInRange_eq_ok_iff {nu : Nat} {J : List (Datum α)} :
    indicesInRange nu J = .ok () ↔ ∀ j ∈ J, j.between? 1 nu = some true := by
  induction J with
  | nil => exact iff_of_true rfl (by simp)
  | cons j J ih =>
    rw [indicesInRange, List.forall_mem_cons, ← ih]
    cases j.between? 1 nu with
    | none => exact iff_of_false (fun h => by cases h) fun h => by cases h.1
    | some b =>
      cases b with
      | false => exact iff_of_false (fun h => by cases h) fun h => by cases h.1
      | true => exact ⟨fun h => ⟨rfl, h⟩, fun h => h.2⟩

/-! ## The first condition that fails -/

/-- With all integer indices in range, the first condition of the upper level that fails. -/
inductive UpperRejects (p : Program α) (x y : Row α) (eps : Option (Datum α)) : Rejection α → Prop where
  | rows {t : Tolerance α} (hJ : ∀ j ∈ p.Jx, j.between? 1 p.nu = some true)
    (ht : Tolerance.ofRequest eps = .ok t) (hrows : RowBroken p.G p.H p.q x y t) :
    UpperRejects p x y eps .upperRows
  | bounds {e : α} (hJ : ∀ j ∈ p.Jx, j.between? 1 p.nu = some true)
    (he : Tolerance.ofRequest eps = .ok (.number e)) (hrows : ¬RowBroken p.G p.H p.q x y (.number e))
    (hbounds : BoundBroken p.xBox x e) : UpperRejects p x y eps .upperBounds
  | fractional {e : α} {j : Datum α} {v : α} (hJ : ∀ j ∈ p.Jx, j.between? 1 p.nu = some true)
    (he : Tolerance.ofRequest eps = .ok (.number e)) (hrows : ¬RowBroken p.G p.H p.q x y (.number e))
    (hbounds : ¬BoundBroken p.xBox x e) (hfar : FirstFractional x e p.Jx j v) :
    UpperRejects p x y eps (.fractional j v)

/-- The first condition of the lower level that fails. -/
inductive LowerRejects (p : Program α) (x y : Row α) (eps : Option (Datum α)) : Rejection α → Prop where
  | rows {t : Tolerance α} (ht : Tolerance.ofRequest eps = .ok t)
    (hrows : RowBroken p.A p.B p.b x y t) : LowerRejects p x y eps .lowerRows
  | bounds {e : α} (he : Tolerance.ofRequest eps = .ok (.number e))
    (hrows : ¬RowBroken p.A p.B p.b x y (.number e)) (hbounds : BoundBroken p.yBox y e) :
    LowerRejects p x y eps .lowerBounds

/-- The first condition that fails in a check. Where both levels are asked for, the lower one counts
only if a check of the upper one accepts. -/
inductive Rejects (p : Program α) (x y : Datum α) (eps : Option (Datum α)) :
    Scope → Rejection α → Prop where
  | upper {scope : Scope} {xs ys : Row α} {r : Rejection α} (hscope : scope ≠ .lower)
    (hpoint : p.point x y = .ok (xs, ys)) (h : p.UpperRejects xs ys eps r) :
    Rejects p x y eps scope r
  | lower {xs ys : Row α} {r : Rejection α} (hpoint : p.point x y = .ok (xs, ys))
    (h : p.LowerRejects xs ys eps r) : Rejects p x y eps .lower r
  | both {xs ys : Row α} {r : Rejection α}
    (hupper : (p.perform (.check .upper x y eps)).1.reply = some (.flag true))
    (hpoint : p.point x y = .ok (xs, ys)) (h : p.LowerRejects xs ys eps r) :
    Rejects p x y eps .both r

omit [Scalar α] in
theorem eq_number_of_toNumber {t : Tolerance α} {e : α} (h : t.toNumber = .ok e) :
    t = .number e := by
  cases t with
  | number eps =>
    cases h
    rfl
  | array eps => cases h

section Rows

variable {m n : Rows α} {rhs x y : Row α} (hm : m.HasShape rhs.length x.length)
  (hn : n.HasShape rhs.length y.length)

include hm hn

theorem holds_excess_eq_false_iff {t : Tolerance α} {eps : Option (Datum α)}
    (ht : Tolerance.ofRequest eps = .ok t) :
    t.holds (excess m n rhs x y) = .ok false ↔ RowBroken m n rhs x y t := by
  rw [rowBroken_iff hm hn, Tolerance.holds_eq_false_iff (Tolerance.regular_of_ofRequest ht)]

theorem holds_excess_eq_true_iff {eps : α} :
    (Tolerance.number eps).holds (excess m n rhs x y) = .ok true ↔
      ¬RowBroken m n rhs x y (.number eps) := by
  rw [not_rowBroken_iff hm hn, Tolerance.holds_number_eq_true_iff]

end Rows

section Levels

variable {p : Program α} (hp : p.Shaped) {x y : Row α} {eps : Option (Datum α)} {r : Rejection α}
  (hx : x.length = p.nu) (hy : y.length = p.nl)

include hp hx hy

theorem upperVerdict_eq_some_iff :
    p.upperVerdict x y eps = .ok (some r) ↔ p.UpperRejects x y eps r := by
  have hG : p.G.HasShape p.q.length x.length := hx ▸ hp.G_shape
  have hH : p.H.HasShape p.q.length y.length := hy ▸ hp.H_shape
  rw [upperVerdict_steps]
  constructor
  · intro h
    obtain ⟨⟨⟩, hJ, h⟩ := exists_of_bind h
    obtain ⟨t, ht, h⟩ := exists_of_bind h
    obtain ⟨b, hrows, h⟩ := exists_of_bind h
    rw [indicesInRange_eq_ok_iff] at hJ
    cases b with
    | false =>
      cases h
      exact .rows hJ ht ((holds_excess_eq_false_iff hG hH ht).1 hrows)
    | true =>
      obtain ⟨e, he, hrest⟩ := exists_of_bind h
      cases eq_number_of_toNumber he
      have hkeeps := (holds_excess_eq_true_iff hG hH).1 hrows
      cases hbounds : boundsHold p.xBox x e with
      | false =>
        rw [hbounds] at hrest
        cases hrest
        exact .bounds hJ ht hkeeps (boundsHold_eq_false_iff.1 hbounds)
      | true =>
        rw [hbounds] at hrest
        obtain ⟨j, v, rfl, hfar⟩ := (firstFractional_eq_some_iff hJ).1 hrest
        exact .fractional hJ ht hkeeps (boundsHold_eq_true_iff.1 hbounds) hfar
  · intro h
    cases h with
    | rows hJ ht hrows =>
      rw [indicesInRange_eq_ok_iff.2 hJ, ht]
      simp only [bind, Except.bind, (holds_excess_eq_false_iff hG hH ht).2 hrows]
      rfl
    | bounds hJ he hrows hbounds =>
      rw [indicesInRange_eq_ok_iff.2 hJ, he]
      simp only [bind, Except.bind, (holds_excess_eq_true_iff hG hH).2 hrows, Tolerance.toNumber, pure,
        Except.pure, boundsHold_eq_false_iff.2 hbounds]
      rfl
    | fractional hJ he hrows hbounds hfar =>
      rw [indicesInRange_eq_ok_iff.2 hJ, he]
      simp only [bind, Except.bind, (holds_excess_eq_true_iff hG hH).2 hrows, Tolerance.toNumber, pure,
        Except.pure, boundsHold_eq_true_iff.2 hbounds]
      exact (firstFractional_eq_some_iff hJ).2 ⟨_, _, rfl, hfar⟩

theorem lowerVerdict_eq_some_iff :
    p.lowerVerdict x y eps = .ok (some r) ↔ p.LowerRejects x y eps r := by
  have hA : p.A.HasShape p.b.length x.length := hx ▸ hp.A_shape
  have hB : p.B.HasShape p.b.length y.length := hy ▸ hp.B_shape
  rw [lowerVerdict_steps]
  constructor
  · intro h
    obtain ⟨t, ht, h⟩ := exists_of_bind h
    obtain ⟨b, hrows, h⟩ := exists_of_bind h
    cases b with
    | false =>
      cases h
      exact .rows ht ((holds_excess_eq_false_iff hA hB ht).1 hrows)
    | true =>
      obtain ⟨e, he, hrest⟩ := exists_of_bind h
      cases eq_number_of_toNumber he
      cases hbounds : boundsHold p.yBox y e with
      | false =>
        rw [hbounds] at hrest
        cases hrest
        exact .bounds ht ((holds_excess_eq_true_iff hA hB).1 hrows) (boundsHold_eq_false_iff.1 hbounds)
      | true =>
        rw [hbounds] at hrest
        cases hrest
  · intro h
    cases h with
    | rows ht hrows =>
      rw [ht]
      simp only [bind, Except.bind, (holds_excess_eq_false_iff hA hB ht).2 hrows]
      rfl
    | bounds he hrows hbounds =>
      rw [he]
      simp only [bind, Except.bind, (holds_excess_eq_true_iff hA hB).2 hrows, Tolerance.toNumber, pure,
        Except.pure, boundsHold_eq_false_iff.2 hbounds]
      rfl

end Levels

/-- What a check answers and logs. -/
theorem perform_check (p : Program α) (scope : Scope) (x y : Datum α) (eps : Option (Datum α)) :
    (p.perform (.check scope x y eps)).1 =
      checkAnswer (p.check scope x y eps, Checking.lines (p.check scope x y eps)) := by
  rw [perform, p.reports_pointCheck scope x y eps]
  rfl

theorem reply_perform_check_eq_true_iff {p : Program α} {scope : Scope} {x y : Datum α}
    {eps : Option (Datum α)} :
    (p.perform (.check scope x y eps)).1.reply = some (.flag true) ↔
      p.check scope x y eps = .ok none := by
  rw [perform_check]
  rcases p.check scope x y eps with f | _ | r
  · exact iff_of_false (fun h => by cases h) fun h => by cases h
  · exact iff_of_true rfl rfl
  · exact iff_of_false (fun h => by cases h) fun h => by cases h

theorem check_eq_some_iff {p : Program α} (hp : p.Shaped) {scope : Scope} {x y : Datum α}
    {eps : Option (Datum α)} {r : Rejection α} :
    p.check scope x y eps = .ok (some r) ↔ p.Rejects x y eps scope r := by
  have hlength : ∀ {xs ys : Row α}, p.point x y = .ok (xs, ys) →
      xs.length = p.nu ∧ ys.length = p.nl := fun hpoint => length_of_point hpoint
  rw [check_steps]
  constructor
  · intro h
    obtain ⟨⟨xs, ys⟩, hpoint, hrest⟩ := exists_of_bind h
    obtain ⟨hxs, hys⟩ := hlength hpoint
    cases scope with
    | upper => exact .upper (by decide) hpoint ((upperVerdict_eq_some_iff hp hxs hys).1 hrest)
    | lower => exact .lower hpoint ((lowerVerdict_eq_some_iff hp hxs hys).1 hrest)
    | both =>
      obtain ⟨verdict, hupper, hlower⟩ := exists_of_bind hrest
      cases verdict with
      | some r' =>
        cases hlower
        exact .upper (by decide) hpoint ((upperVerdict_eq_some_iff hp hxs hys).1 hupper)
      | none =>
        have hcheck : p.check .upper x y eps = .ok none := by
          rw [check_steps, hpoint]
          exact hupper
        exact .both (reply_perform_check_eq_true_iff.2 hcheck) hpoint
          ((lowerVerdict_eq_some_iff hp hxs hys).1 hlower)
  · intro h
    cases h with
    | upper hscope hpoint h =>
      obtain ⟨hxs, hys⟩ := hlength hpoint
      have hverdict := (upperVerdict_eq_some_iff hp hxs hys).2 h
      rw [hpoint]
      cases scope with
      | upper => exact hverdict
      | lower => exact absurd rfl hscope
      | both =>
        simp only [bind, Except.bind, hverdict]
        rfl
    | lower hpoint h =>
      obtain ⟨hxs, hys⟩ := hlength hpoint
      rw [hpoint]
      exact (lowerVerdict_eq_some_iff hp hxs hys).2 h
    | both hupper hpoint h =>
      obtain ⟨hxs, hys⟩ := hlength hpoint
      rw [reply_perform_check_eq_true_iff, check_steps, hpoint] at hupper
      have hverdict : p.upperVerdict _ _ eps = .ok none := hupper
      rw [hpoint]
      simp only [bind, Except.bind, hverdict]
      exact (lowerVerdict_eq_some_iff hp hxs hys).2 h

end Program

/-! ## Texts -/

namespace Rejection

/-- The first letter of the sentence about a rejection. -/
def initial : Rejection α → Char
  | .upperRows => 'U'
  | .upperBounds => 'B'
  | .fractional _ _ => 'x'
  | .lowerRows => 'L'
  | .lowerBounds => 'B'

theorem head_text (r : Rejection α) : r.text.toList.head? = some r.initial := by
  cases r with
  | fractional index value => simp [text, initial]
  | _ =>
    rw [text, initial]
    decide

/-- Only the sentences about integer variables tell more than which condition they are about. -/
theorem eq_of_text_eq {r s : Rejection α} (hs : ∀ j v, s ≠ .fractional j v) (h : r.text = s.text) :
    r = s := by
  have hhead := (r.head_text.symm.trans (congrArg (·.toList.head?) h)).trans s.head_text
  cases s with
  | fractional j v => exact absurd rfl (hs j v)
  | upperRows => cases r <;> simp_all [initial]
  | lowerRows => cases r <;> simp_all [initial]
  | upperBounds =>
    cases r with
    | upperBounds => rfl
    | lowerBounds =>
      rw [text, text] at h
      exact absurd h (by decide)
    | _ => simp [initial] at hhead
  | lowerBounds =>
    cases r with
    | lowerBounds => rfl
    | upperBounds =>
      rw [text, text] at h
      exact absurd h (by decide)
    | _ => simp [initial] at hhead

theorem eq_fractional_of_text {r : Rejection α} {s : String} (h : r.text = "x" ++ s) :
    ∃ j v, r = .fractional j v ∧ s = j.shown ++ " = " ++ Scalar.text v ++ " is not integer." := by
  have hhead := r.head_text.symm.trans (congrArg (·.toList.head?) h)
  cases r with
  | fractional j v =>
    refine ⟨j, v, rfl, ?_⟩
    rw [text, String.append_assoc, String.append_assoc, String.append_assoc,
      String.append_right_inj] at h
    rw [← h, String.append_assoc, String.append_assoc]
  | _ => simp [initial] at hhead

end Rejection

namespace Program

theorem log_perform_check {p : Program α} (hp : p.Shaped) (scope : Scope) (x y : Datum α)
    (eps : Option (Datum α)) (line : LogLine) :
    (p.perform (.check scope x y eps)).1.log = [line] ↔
      ∃ r, p.Rejects x y eps scope r ∧ line = ⟨.debug, "BilevelTools", r.text⟩ := by
  simp only [← check_eq_some_iff hp]
  rw [perform_check]
  rcases p.check scope x y eps with f | _ | r
  · refine iff_of_false (fun h => by cases h) ?_
    rintro ⟨r, hr, -⟩
    cases hr
  · refine iff_of_false (fun h => by cases h) ?_
    rintro ⟨r, hr, -⟩
    cases hr
  · constructor
    · intro hlog
      exact ⟨r, rfl, (List.cons.inj hlog).1.symm⟩
    · rintro ⟨r', hr', rfl⟩
      cases hr'
      rfl

/-- **Diagnostics.** A check that accepts or fails logs nothing. A check that rejects logs one line,
and which line it is says what the first condition is that fails: rows, then bounds, then the first
integer variable in the order of the indices; for both levels together rows and bounds of the lower one
come up only after the upper one has accepted. -/
theorem perform_check_log {p : Program α} (hp : p.Reachable) (scope : Scope) (x y : Datum α)
    (eps : Option (Datum α)) :
    let answer := (p.perform (.check scope x y eps)).1
    ((answer.reply = some (.flag true) ∧ answer.fault = none ∧ answer.log = []) ∨
      (answer.reply = none ∧ answer.fault.isSome ∧ answer.log = []) ∨
      (answer.reply = some (.flag false) ∧ answer.fault = none ∧
        ∃ r, p.Rejects x y eps scope r ∧ answer.log = [⟨.debug, "BilevelTools", r.text⟩])) ∧
    (answer.log = [⟨.debug, "BilevelTools", "Upper constraints are violated."⟩] ↔
      p.Rejects x y eps scope .upperRows) ∧
    (answer.log = [⟨.debug, "BilevelTools", "Bounds of upper-level variables are violated."⟩] ↔
      p.Rejects x y eps scope .upperBounds) ∧
    (∀ s, answer.log = [⟨.debug, "BilevelTools", "x" ++ s⟩] ↔
      ∃ j v, p.Rejects x y eps scope (.fractional j v) ∧
        s = j.shown ++ " = " ++ Scalar.text v ++ " is not integer.") ∧
    (answer.log = [⟨.debug, "BilevelTools", "Lower constraints are violated."⟩] ↔
      p.Rejects x y eps scope .lowerRows) ∧
    (answer.log = [⟨.debug, "BilevelTools", "Bounds of lower-level variables are violated."⟩] ↔
      p.Rejects x y eps scope .lowerBounds) ∧
    (scope = .both → p.Rejects x y eps scope .lowerRows ∨ p.Rejects x y eps scope .lowerBounds →
      (p.perform (.check .upper x y eps)).1.reply = some (.flag true)) := by
  have hlog := log_perform_check hp.shaped scope x y eps
  have hline : ∀ s : Rejection α, (∀ j v, s ≠ .fractional j v) →
      ((p.perform (.check scope x y eps)).1.log = [⟨.debug, "BilevelTools", s.text⟩] ↔
        p.Rejects x y eps scope s) := by
    intro s hs
    rw [hlog]
    constructor
    · rintro ⟨r, hr, h⟩
      rw [← Rejection.eq_of_text_eq hs (congrArg LogLine.text h).symm]
      exact hr
    · exact fun h => ⟨s, h, rfl⟩
  refine ⟨?_, hline .upperRows (by simp), hline .upperBounds (by simp), fun s => ?_,
    hline .lowerRows (by simp), hline .lowerBounds (by simp), ?_⟩
  · rw [perform_check]
    rcases h : p.check scope x y eps with f | _ | r
    · exact .inr (.inl ⟨rfl, rfl, rfl⟩)
    · exact .inl ⟨rfl, rfl, rfl⟩
    · exact .inr (.inr ⟨rfl, rfl, r, (check_eq_some_iff hp.shaped).1 h, rfl⟩)
  · rw [hlog]
    constructor
    · rintro ⟨r, hr, h⟩
      obtain ⟨j, v, rfl, hs⟩ := Rejection.eq_fractional_of_text (congrArg LogLine.text h).symm
      exact ⟨j, v, hr, hs⟩
    · rintro ⟨j, v, hr, rfl⟩
      exact ⟨_, hr, by simp [Rejection.text, String.append_assoc]⟩
  · rintro rfl (h | h)
    · cases h with
      | upper _ _ h => cases h
      | both hupper _ _ => exact hupper
    · cases h with
      | upper _ _ h => cases h
      | both hupper _ _ => exact hupper

/-- The only row of the lower level does not hold, and the upper level accepts. -/
theorem log_smallProgram :
    ∃ p : Program Extended, build smallArguments = .ok p ∧
      (p.perform (.check .both (.list [.int 5, .int 0]) (.list [.int 0]) none)).1.log =
        [⟨.debug, "BilevelTools", "Lower constraints are violated."⟩] := by
  have h : build smallArguments = .ok _ := rfl
  obtain ⟨-, -, -, -, hlower, -⟩ :=
    perform_check_log (.built h) .both (.list [.int 5, .int 0]) (.list [.int 0]) none
  refine ⟨_, h, hlower.2 (.both ?_ rfl (.rows rfl ⟨0, _, _, _, rfl, rfl, rfl, ?_⟩))⟩
  · cbv
  · decide +kernel

end Program
end Bilevel
