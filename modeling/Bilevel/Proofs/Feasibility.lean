import Bilevel.Proofs.Checking
import Bilevel.Proofs.Exact.Faithful
import Bilevel.Proofs.Exact.Rows
import Mathlib

/-!
# Bilevel.Proofs.Feasibility

The checks decide the conditions of the program, up to the tolerance.

* `RowsWithin`, `BoundsWithin` and `IntegralWithin` are the conditions over the extended reals:
  right-hand sides and bounds are moved by the tolerance, and a coordinate is integral if some
  integer is within the tolerance.
* `upperVerdict_of_number`, `lowerVerdict_of_number`: a check under a tolerance that is one number,
  condition by condition.
* `check_decides`: for points of the right size a check of the upper level fails exactly on integer
  indices out of range, whatever the point is, and otherwise decides the conditions; the lower level
  is always decided; both together fail as the upper level does, and accept if both accept.
* `exists_reads_of_check`: what both levels accept under a finite tolerance consists of finite numbers.
-/

namespace Bilevel

open Extended Linear

/-- The value becomes the row of these rational numbers. -/
def Datum.Reads (d : Datum Extended) (xs : List ℚ) : Prop :=
  d.toTensor = .ok ⟨[xs.length], xs.map finite⟩

theorem Datum.reads_vector (xs : List ℚ) : (Datum.vector (xs.map finite)).Reads xs := by
  have h := Datum.toTensor_vector (xs.map finite)
  rw [List.length_map] at h
  exact h

/-- All rows of `m x + n y` are at most their right-hand sides, up to the tolerance. -/
def RowsWithin (m n : Rows Extended) (rhs : Row Extended) (x y : List ℚ) (eps : ℚ) : Prop :=
  ∀ (i : Nat) (r s : Row Extended) (c : Extended),
    m[i]? = some r → n[i]? = some s → rhs[i]? = some c →
    (((product (rational r) x + product (rational s) y : ℚ) : ℝ) : EReal) ≤
      c.toEReal + ((eps : ℝ) : EReal)

/-- All coordinates are inside their bounds, up to the tolerance. -/
def BoundsWithin (box : Box Extended) (v : List ℚ) (eps : ℚ) : Prop :=
  ∀ (j : Nat) (a : ℚ) (low high : Extended),
    v[j]? = some a → box.lower[j]? = some low → box.upper[j]? = some high →
    low.toEReal - ((eps : ℝ) : EReal) ≤ ((a : ℝ) : EReal) ∧
      ((a : ℝ) : EReal) ≤ high.toEReal + ((eps : ℝ) : EReal)

/-- All coordinates with the given indices, counted from one, are integers up to the tolerance. -/
def IntegralWithin (J : List ℤ) (x : List ℚ) (eps : ℚ) : Prop :=
  ∀ j ∈ J, ∀ a, x[(j - 1).toNat]? = some a → ∃ n : ℤ, |a - n| ≤ eps

/-- No bound is undefined. -/
def Box.Defined (box : Box Extended) : Prop :=
  ∀ side, ∀ c ∈ box.get side, c ≠ .undefined

namespace Program

/-- The matrices are finite, and no right-hand side or bound is undefined. -/
structure Definite (p : Program Extended) : Prop where
  G_finite : ∀ r ∈ p.G, ∀ a ∈ r, a.IsFinite
  H_finite : ∀ r ∈ p.H, ∀ a ∈ r, a.IsFinite
  A_finite : ∀ r ∈ p.A, ∀ a ∈ r, a.IsFinite
  B_finite : ∀ r ∈ p.B, ∀ a ∈ r, a.IsFinite
  q_defined : ∀ c ∈ p.q, c ≠ .undefined
  b_defined : ∀ c ∈ p.b, c ≠ .undefined
  xBox_defined : p.xBox.Defined
  yBox_defined : p.yBox.Defined

/-- The upper level accepts a point. -/
def UpperFeasible (p : Program Extended) (J : List ℤ) (x y : List ℚ) (eps : ℚ) : Prop :=
  RowsWithin p.G p.H p.q x y eps ∧ BoundsWithin p.xBox x eps ∧ IntegralWithin J x eps

/-- The lower level accepts a point. -/
def LowerFeasible (p : Program Extended) (x y : List ℚ) (eps : ℚ) : Prop :=
  RowsWithin p.A p.B p.b x y eps ∧ BoundsWithin p.yBox y eps

/-! ## Condition by condition -/

theorem apply_of_finite {m : Rows Extended} {rows : Nat} {x : List ℚ}
    (hm : Rows.HasShape m rows x.length) (hfin : ∀ r ∈ m, ∀ a ∈ r, a.IsFinite) :
    apply m (x.map finite) = m.map fun r => finite (product (rational r) x) := by
  have hrat : (m.map rational).map (·.map finite) = m := by
    rw [List.map_map]
    conv => rhs; rw [← List.map_id m]
    exact List.map_congr_left fun r hr => map_finite_rational (hfin r hr)
  have hlen : ∀ r ∈ m.map rational, r.length = x.length := by
    intro r hr
    obtain ⟨s, hs, rfl⟩ := List.mem_map.1 hr
    rw [rational, List.length_map]
    exact hm.row_length s hs
  have happ := apply_finite (m.map rational) x hlen
  rw [hrat, List.map_map, List.map_map] at happ
  exact happ

theorem excess_le_iff {m n : Rows Extended} {rhs : Row Extended} {rows : Nat} {x y : List ℚ}
    (hm : Rows.HasShape m rows x.length) (hn : Rows.HasShape n rows y.length)
    (hmf : ∀ r ∈ m, ∀ a ∈ r, a.IsFinite) (hnf : ∀ r ∈ n, ∀ a ∈ r, a.IsFinite)
    (hrhs : ∀ c ∈ rhs, c ≠ .undefined) (eps : ℚ) :
    ((excess m n rhs (x.map finite) (y.map finite)).all fun a => Scalar.le a (finite eps)) = true ↔
      RowsWithin m n rhs x y eps := by
  rw [excess, apply_of_finite hm hmf, apply_of_finite hn hnf, List.all_map, List.all_eq_true]
  constructor
  · intro h i r s c hr hs hc
    have hmem : (finite (product (rational r) x), finite (product (rational s) y), c) ∈
        (m.map fun r => finite (product (rational r) x)).zip
          ((n.map fun r => finite (product (rational r) y)).zip rhs) := by
      refine List.mem_iff_getElem?.2 ⟨i, ?_⟩
      rw [List.getElem?_zip_eq_some, List.getElem?_zip_eq_some, List.getElem?_map,
        List.getElem?_map, hr, hs]
      exact ⟨rfl, rfl, hc⟩
    exact (sub_finite_le_iff _ eps (hrhs c (List.mem_of_getElem? hc))).1 (h _ hmem)
  · rintro h ⟨a, b, c⟩ hmem
    obtain ⟨i, hi⟩ := List.mem_iff_getElem?.1 hmem
    rw [List.getElem?_zip_eq_some, List.getElem?_zip_eq_some, List.getElem?_map,
      List.getElem?_map, Option.map_eq_some_iff, Option.map_eq_some_iff] at hi
    obtain ⟨⟨r, hr, rfl⟩, ⟨s, hs, rfl⟩, hc⟩ := hi
    exact (sub_finite_le_iff _ eps (hrhs c (List.mem_of_getElem? hc))).2 (h i r s c hr hs hc)

theorem boundsHold_iff {box : Box Extended} {v : List ℚ} (hlow : box.lower.length = v.length)
    (hhigh : box.upper.length = v.length) (hbox : box.Defined) (eps : ℚ) :
    boundsHold box (v.map finite) (finite eps) = true ↔ BoundsWithin box v eps := by
  rw [boundsHold, Bool.and_eq_true, List.all_eq_true, List.all_eq_true]
  constructor
  · rintro ⟨hl, hu⟩ j a low high ha hlo hhi
    have hmap : (v.map finite)[j]? = some (finite a) := by
      rw [List.getElem?_map, ha]
      rfl
    have hzl : (finite a, low) ∈ (v.map finite).zip box.lower :=
      List.mem_iff_getElem?.2 ⟨j, List.getElem?_zip_eq_some.2 ⟨hmap, hlo⟩⟩
    have hzu : (finite a, high) ∈ (v.map finite).zip box.upper :=
      List.mem_iff_getElem?.2 ⟨j, List.getElem?_zip_eq_some.2 ⟨hmap, hhi⟩⟩
    constructor
    · exact (le_sub_finite_iff a eps (hbox .lower low (List.mem_of_getElem? hlo))).1 (hl _ hzl)
    · exact (sub_finite_le_iff a eps (hbox .upper high (List.mem_of_getElem? hhi))).1 (hu _ hzu)
  · intro h
    -- a coordinate has both bounds, so that each of them is found beside the other
    have hboth : ∀ (j : Nat) (a : Extended), (v.map finite)[j]? = some a → ∃ q low high, a = finite q ∧
        v[j]? = some q ∧ box.lower[j]? = some low ∧ box.upper[j]? = some high := by
      intro j a ha
      rw [List.getElem?_map, Option.map_eq_some_iff] at ha
      obtain ⟨q, hq, rfl⟩ := ha
      obtain ⟨hj, -⟩ := List.getElem?_eq_some_iff.1 hq
      exact ⟨q, _, _, rfl, hq, List.getElem?_eq_getElem (by omega),
        List.getElem?_eq_getElem (by omega)⟩
    constructor
    · rintro ⟨a, low⟩ hmem
      obtain ⟨j, hj⟩ := List.mem_iff_getElem?.1 hmem
      obtain ⟨ha, hlo⟩ := List.getElem?_zip_eq_some.1 hj
      obtain ⟨q, low', high, rfl, hq, -, hhi⟩ := hboth j a ha
      exact (le_sub_finite_iff q eps (hbox .lower low (List.mem_of_getElem? hlo))).2
        (h j q low high hq hlo hhi).1
    · rintro ⟨a, high⟩ hmem
      obtain ⟨j, hj⟩ := List.mem_iff_getElem?.1 hmem
      obtain ⟨ha, hhi⟩ := List.getElem?_zip_eq_some.1 hj
      obtain ⟨q, low, high', rfl, hq, hlo, -⟩ := hboth j a ha
      exact (sub_finite_le_iff q eps (hbox .upper high (List.mem_of_getElem? hhi))).2
        (h j q low high hq hlo hhi).2

/-- Under a tolerance below infinity only finite coordinates are inside their bounds, whatever these
are. -/
theorem isFinite_of_boundsHold {α : Type} [Scalar α] [Faithful α] {box : Box α} {v : Row α} {e : α}
    (he : Faithful.exact e ≠ .infinite false) (hlow : box.lower.length = v.length)
    (hhigh : box.upper.length = v.length) (h : boundsHold box v e = true) :
    ∀ a ∈ v, (Faithful.exact a).IsFinite := by
  intro a ha
  obtain ⟨j, hj⟩ := List.mem_iff_getElem?.1 ha
  have hlt : j < v.length := (List.getElem?_eq_some_iff.1 hj).1
  have hl : box.lower[j]? = some box.lower[j] := List.getElem?_eq_getElem (by omega)
  have hu : box.upper[j]? = some box.upper[j] := List.getElem?_eq_getElem (by omega)
  rw [boundsHold, Bool.and_eq_true, List.all_eq_true, List.all_eq_true] at h
  exact Faithful.isFinite_of_between he
    (h.1 (a, _) (List.mem_iff_getElem?.2 ⟨j, List.getElem?_zip_eq_some.2 ⟨hj, hl⟩⟩))
    (h.2 (a, _) (List.mem_iff_getElem?.2 ⟨j, List.getElem?_zip_eq_some.2 ⟨hj, hu⟩⟩))

theorem between?_int {α : Type} [Scalar α] (j : Int) (nu : Nat) :
    (Datum.int j : Datum α).between? 1 nu = some (decide (1 ≤ j ∧ j ≤ nu)) := by
  simp [Datum.between?]

/-- Indices in range are passed over. -/
theorem indicesInRange_append {α : Type} [Scalar α] {nu : Nat} {J : List ℤ}
    (h : ∀ j ∈ J, 1 ≤ j ∧ j ≤ nu) (rest : List (Datum α)) :
    indicesInRange nu (J.map .int ++ rest) = indicesInRange nu rest := by
  induction J with
  | nil => rfl
  | cons j J ih =>
    rw [List.map_cons, List.cons_append, indicesInRange, between?_int,
      decide_eq_true (h j List.mem_cons_self)]
    exact ih fun k hk => h k (List.mem_cons_of_mem j hk)

theorem indicesInRange_of_forall {α : Type} [Scalar α] {nu : Nat} {J : List ℤ}
    (h : ∀ j ∈ J, 1 ≤ j ∧ j ≤ nu) :
    indicesInRange nu (J.map (Datum.int (α := α))) = .ok () := by
  have happend := indicesInRange_append (α := α) h []
  rw [List.append_nil] at happend
  exact happend

theorem indicesInRange_of_exists {α : Type} [Scalar α] {nu : Nat} {J : List ℤ}
    (h : ∃ j ∈ J, ¬(1 ≤ j ∧ j ≤ nu)) :
    ∃ j ∈ J, ¬(1 ≤ j ∧ j ≤ nu) ∧
      indicesInRange nu (J.map (Datum.int (α := α))) = .error (.integerIndex (.int j) nu) := by
  induction J with
  | nil =>
    obtain ⟨j, hj, -⟩ := h
    cases hj
  | cons j J ih =>
    by_cases hj : 1 ≤ j ∧ j ≤ nu
    · obtain ⟨k, hk, hout⟩ := h
      have hkJ : k ∈ J := by
        rcases List.mem_cons.1 hk with rfl | hk
        · exact absurd hj hout
        · exact hk
      obtain ⟨k', hk', hout', herr⟩ := ih ⟨k, hkJ, hout⟩
      refine ⟨k', List.mem_cons_of_mem j hk', hout', ?_⟩
      rw [List.map_cons, indicesInRange, between?_int, decide_eq_true hj]
      exact herr
    · refine ⟨j, List.mem_cons_self, hj, ?_⟩
      rw [List.map_cons, indicesInRange, between?_int, decide_eq_false hj]
      rfl

/-- With all indices in range the integer variables are decided. -/
theorem firstFractional_of_inRange {x : List ℚ} {J : List ℤ} (eps : ℚ)
    (h : ∀ j ∈ J, 1 ≤ j ∧ j ≤ x.length) :
    ∃ r, firstFractional (x.map finite) (finite eps) (J.map Datum.int) = .ok r ∧
      (r = none ↔ IntegralWithin J x eps) := by
  induction J with
  | nil => exact ⟨none, rfl, iff_of_true rfl fun j hj => by cases hj⟩
  | cons j J ih =>
    obtain ⟨h1, h2⟩ := h j List.mem_cons_self
    obtain ⟨r, hr, hiff⟩ := ih fun k hk => h k (List.mem_cons_of_mem j hk)
    have hlt : (j - 1).toNat < x.length := by omega
    have hx : x[(j - 1).toNat]? = some x[(j - 1).toNat] := List.getElem?_eq_getElem hlt
    have hpos : ((position? (Datum.int j : Datum Extended)).bind fun i => (x.map finite)[i]?) =
        some (finite x[(j - 1).toNat]) := by
      show (x.map finite)[(j - 1).toNat]? = _
      rw [List.getElem?_map, hx]
      rfl
    rw [List.map_cons, firstFractional_cons, hpos]
    simp only [distance?_finite, lt_finite_iff]
    by_cases hfar : eps < |x[(j - 1).toNat] - Extended.round x[(j - 1).toNat]|
    · rw [if_pos hfar]
      refine ⟨_, rfl, iff_of_false (fun hc => by cases hc) fun hint => ?_⟩
      obtain ⟨n, hn⟩ := hint j List.mem_cons_self _ hx
      exact absurd ((exists_distance_le_iff _ eps).2 ⟨n, hn⟩) (not_le.2 hfar)
    · rw [if_neg hfar]
      refine ⟨r, hr, hiff.trans ⟨fun hint k hk a ha => ?_, fun hint k hk => ?_⟩⟩
      · rcases List.mem_cons.1 hk with rfl | hk
        · rw [hx] at ha
          cases ha
          exact (exists_distance_le_iff _ eps).1 (not_lt.1 hfar)
        · exact hint k hk a ha
      · exact hint k (List.mem_cons_of_mem j hk)

/-! ## Verdicts -/

section Verdict

variable {α : Type} [Scalar α] {p : Program α} {x y : Row α} {eps : Option (Datum α)} {e : α}

theorem upperVerdict_of_outOfRange {f : Fault α} (h : indicesInRange p.nu p.Jx = .error f) :
    p.upperVerdict x y eps = .error f := by
  rw [upperVerdict_steps, h]
  rfl

/-- With all indices in range the upper level is looked at condition by condition. -/
theorem upperVerdict_of_number (hJ : indicesInRange p.nu p.Jx = .ok ())
    (he : Tolerance.ofRequest eps = .ok (.number e)) :
    p.upperVerdict x y eps =
      if (excess p.G p.H p.q x y).all fun a => Scalar.le a e then
        if boundsHold p.xBox x e then firstFractional x e p.Jx else .ok (some .upperBounds)
      else .ok (some .upperRows) := by
  rw [upperVerdict_steps, hJ, he]
  simp only [bind, Except.bind, Tolerance.holds, Tolerance.toNumber, pure, Except.pure]
  cases (excess p.G p.H p.q x y).all fun a => Scalar.le a e with
  | false => rfl
  | true =>
    cases boundsHold p.xBox x e with
    | false => rfl
    | true => rfl

theorem lowerVerdict_of_number (he : Tolerance.ofRequest eps = .ok (.number e)) :
    p.lowerVerdict x y eps =
      if (excess p.A p.B p.b x y).all fun a => Scalar.le a e then
        if boundsHold p.yBox y e then .ok none else .ok (some .lowerBounds)
      else .ok (some .lowerRows) := by
  rw [lowerVerdict_steps, he]
  simp only [bind, Except.bind, Tolerance.holds, Tolerance.toNumber, pure, Except.pure]
  cases (excess p.A p.B p.b x y).all fun a => Scalar.le a e with
  | false => rfl
  | true =>
    cases boundsHold p.yBox y e with
    | false => rfl
    | true => rfl

/-- The bounds hold in every outcome that comes after them. -/
theorem boundsHold_of_upperVerdict (he : Tolerance.ofRequest eps = .ok (.number e))
    {r : Option (Rejection α)} (hrows : r ≠ some .upperRows) (hbounds : r ≠ some .upperBounds)
    (h : p.upperVerdict x y eps = .ok r) : boundsHold p.xBox x e = true := by
  cases hJ : indicesInRange p.nu p.Jx with
  | error f =>
    rw [upperVerdict_of_outOfRange hJ] at h
    cases h
  | ok _ =>
    rw [upperVerdict_of_number hJ he] at h
    split at h
    · split at h
      · assumption
      · cases h
        exact absurd rfl hbounds
    · cases h
      exact absurd rfl hrows

theorem boundsHold_of_lowerVerdict (he : Tolerance.ofRequest eps = .ok (.number e))
    (h : p.lowerVerdict x y eps = .ok none) : boundsHold p.yBox y e = true := by
  rw [lowerVerdict_of_number he] at h
  split at h
  · split at h
    · assumption
    · cases h
  · cases h

end Verdict

variable {p : Program Extended} {J : List ℤ} {xs ys : List ℚ} {eps : Option (Datum Extended)}
  {e : ℚ}

/-- With all indices in range the upper level is decided. -/
theorem upperVerdict_decides (hp : p.Shaped) (hd : p.Definite) (hJ : p.Jx = J.map Datum.int)
    (hx : xs.length = p.nu) (hy : ys.length = p.nl)
    (he : Tolerance.ofRequest eps = .ok (.number (finite e)))
    (hin : ∀ j ∈ J, 1 ≤ j ∧ j ≤ p.nu) :
    ∃ r, p.upperVerdict (xs.map finite) (ys.map finite) eps = .ok r ∧
      (r = none ↔ p.UpperFeasible J xs ys e) := by
  have hrows := excess_le_iff (hx ▸ hp.G_shape) (hy ▸ hp.H_shape) hd.G_finite hd.H_finite
    hd.q_defined e
  have hbounds := boundsHold_iff (hp.xl_length.trans hx.symm) (hp.xu_length.trans hx.symm)
    hd.xBox_defined e
  rw [upperVerdict_of_number (hJ ▸ indicesInRange_of_forall hin) he]
  by_cases h1 : RowsWithin p.G p.H p.q xs ys e
  · rw [if_pos (hrows.2 h1)]
    by_cases h2 : BoundsWithin p.xBox xs e
    · rw [if_pos (hbounds.2 h2), hJ]
      obtain ⟨r, hr, hiff⟩ := firstFractional_of_inRange e (hx ▸ hin)
      exact ⟨r, hr, hiff.trans ⟨fun h => ⟨h1, h2, h⟩, fun h => h.2.2⟩⟩
    · rw [if_neg fun h => h2 (hbounds.1 h)]
      exact ⟨_, rfl, iff_of_false (fun h => by cases h) fun h => h2 h.2.1⟩
  · rw [if_neg fun h => h1 (hrows.1 h)]
    exact ⟨_, rfl, iff_of_false (fun h => by cases h) fun h => h1 h.1⟩

open Classical in
/-- What the lower level says: the first of its two families of conditions that does not hold. Of the
program only the lower level has to be definite. -/
theorem lowerVerdict_eq {m : Nat} (hA : Rows.HasShape p.A m xs.length)
    (hB : Rows.HasShape p.B m ys.length) (hAf : ∀ r ∈ p.A, ∀ a ∈ r, a.IsFinite)
    (hBf : ∀ r ∈ p.B, ∀ a ∈ r, a.IsFinite) (hb : ∀ c ∈ p.b, c ≠ .undefined)
    (hlow : p.yBox.lower.length = ys.length) (hhigh : p.yBox.upper.length = ys.length)
    (hbox : p.yBox.Defined) (he : Tolerance.ofRequest eps = .ok (.number (finite e))) :
    p.lowerVerdict (xs.map finite) (ys.map finite) eps =
      .ok (if RowsWithin p.A p.B p.b xs ys e then
        if BoundsWithin p.yBox ys e then none else some .lowerBounds
      else some .lowerRows) := by
  have hrows := excess_le_iff hA hB hAf hBf hb e
  have hbounds := boundsHold_iff hlow hhigh hbox e
  rw [lowerVerdict_of_number he]
  by_cases h1 : RowsWithin p.A p.B p.b xs ys e
  · rw [if_pos (hrows.2 h1), if_pos h1]
    by_cases h2 : BoundsWithin p.yBox ys e
    · rw [if_pos (hbounds.2 h2), if_pos h2]
    · rw [if_neg fun h => h2 (hbounds.1 h), if_neg h2]
  · rw [if_neg fun h => h1 (hrows.1 h), if_neg h1]

/-- The lower level is always decided. -/
theorem lowerVerdict_decides (hp : p.Shaped) (hd : p.Definite) (hx : xs.length = p.nu)
    (hy : ys.length = p.nl) (he : Tolerance.ofRequest eps = .ok (.number (finite e))) :
    ∃ r, p.lowerVerdict (xs.map finite) (ys.map finite) eps = .ok r ∧
      (r = none ↔ p.LowerFeasible xs ys e) := by
  refine ⟨_, lowerVerdict_eq (hx ▸ hp.A_shape) (hy ▸ hp.B_shape) hd.A_finite hd.B_finite
    hd.b_defined (hp.yl_length.trans hy.symm) (hp.yu_length.trans hy.symm) hd.yBox_defined he, ?_⟩
  rw [LowerFeasible]
  split <;> simp_all

theorem coordinates_of_reads {d : Datum Extended} {zs : List ℚ} (h : d.Reads zs) :
    coordinates d = .ok ⟨[zs.length], zs.map finite⟩ := by
  rw [coordinates, h]
  rfl

theorem point_of_reads {x y : Datum Extended} (hx : x.Reads xs) (hy : y.Reads ys)
    (hnu : xs.length = p.nu) (hnl : ys.length = p.nl) :
    p.point x y = .ok (xs.map finite, ys.map finite) := by
  rw [point, coordinates_of_reads hx, coordinates_of_reads hy]
  exact if_pos ⟨congrArg (fun n => [n]) hnu, congrArg (fun n => [n]) hnl⟩

/-- What is inside its bounds consists of rational numbers. -/
theorem exists_reads_of_bounds {d : Datum Extended} {v : Tensor Extended} {n : Nat}
    {box : Box Extended} (hv : d.toTensor = .ok v) (hs : v.shape = [n])
    (hlow : box.lower.length = n) (hhigh : box.upper.length = n)
    (h : boundsHold box v.entries (finite e) = true) :
    ∃ zs, d.Reads zs ∧ zs.length = n ∧ v.entries = zs.map finite := by
  have hentries : v.entries.length = n := Datum.length_row hv hs
  have hfinite := map_finite_rational (isFinite_of_boundsHold (fun he => by cases he)
    (hlow.trans hentries.symm) (hhigh.trans hentries.symm) h)
  have hlength : (rational v.entries).length = n := by
    rw [rational, List.length_map, hentries]
  refine ⟨rational v.entries, ?_, hlength, hfinite.symm⟩
  rw [Datum.Reads, hv, hfinite, hlength, ← hs]

theorem point_of_wrongSize {x y : Datum Extended} (hx : x.Reads xs) (hy : y.Reads ys)
    (h : ¬(xs.length = p.nu ∧ ys.length = p.nl)) :
    p.point x y = .error (.wrongSize [xs.length] [ys.length] p.nu p.nl) := by
  rw [point, coordinates_of_reads hx, coordinates_of_reads hy]
  refine if_neg fun hs => h ⟨?_, ?_⟩
  · exact List.head_eq_of_cons_eq hs.1
  · exact List.head_eq_of_cons_eq hs.2

/-- A check of both levels accepts what consists of rational numbers and is accepted by each. -/
theorem exists_reads_of_check (hp : p.Shaped) (he : Tolerance.ofRequest eps = .ok (.number (finite e)))
    {x y : Datum Extended} (h : p.check .both x y eps = .ok none) :
    ∃ xs ys, x.Reads xs ∧ y.Reads ys ∧ xs.length = p.nu ∧ ys.length = p.nl ∧
      p.upperVerdict (xs.map finite) (ys.map finite) eps = .ok none ∧
      p.lowerVerdict (xs.map finite) (ys.map finite) eps = .ok none := by
  rw [check_steps] at h
  obtain ⟨⟨xs, ys⟩, hpoint, h⟩ := exists_of_bind h
  obtain ⟨u, v, hu, hv, hus, hvs, rfl, rfl⟩ := exists_of_point hpoint
  obtain ⟨verdict, hupper, h⟩ := exists_of_bind h
  cases verdict with
  | some r => cases h
  | none =>
    have hlower : p.lowerVerdict u.entries v.entries eps = .ok none := h
    obtain ⟨xs, hx, hnu, hxs⟩ := exists_reads_of_bounds hu hus hp.xl_length hp.xu_length
      (boundsHold_of_upperVerdict he (fun h => by cases h) (fun h => by cases h) hupper)
    obtain ⟨ys, hy, hnl, hys⟩ := exists_reads_of_bounds hv hvs hp.yl_length hp.yu_length
      (boundsHold_of_lowerVerdict he hlower)
    rw [hxs, hys] at hupper hlower
    exact ⟨xs, ys, hx, hy, hnu, hnl, hupper, hlower⟩

/-- **Feasibility.** Points of another size are refused. For points of the right size: a check of
the upper level fails exactly if an integer index is out of range, and otherwise decides its
conditions; the lower level is always decided; and both together fail exactly as the upper level
does, and accept exactly if both accept. -/
theorem check_decides (hp : p.Shaped) (hd : p.Definite) (hJ : p.Jx = J.map Datum.int)
    {x y : Datum Extended} (hx : x.Reads xs) (hy : y.Reads ys)
    (he : Tolerance.ofRequest eps = .ok (.number (finite e))) :
    (¬(xs.length = p.nu ∧ ys.length = p.nl) → ∀ scope, p.check scope x y eps =
      .error (.wrongSize [xs.length] [ys.length] p.nu p.nl)) ∧
    (xs.length = p.nu → ys.length = p.nl →
      ((∃ j ∈ J, ¬(1 ≤ j ∧ j ≤ p.nu)) → ∃ j ∈ J, ¬(1 ≤ j ∧ j ≤ p.nu) ∧
        p.check .upper x y eps = .error (.integerIndex (.int j) p.nu)) ∧
      ((∀ j ∈ J, 1 ≤ j ∧ j ≤ p.nu) → ∃ r, p.check .upper x y eps = .ok r ∧
        (r = none ↔ p.UpperFeasible J xs ys e)) ∧
      (∃ r, p.check .lower x y eps = .ok r ∧ (r = none ↔ p.LowerFeasible xs ys e)) ∧
      (∀ f, p.check .both x y eps = .error f ↔ p.check .upper x y eps = .error f) ∧
      (p.check .both x y eps = .ok none ↔
        p.check .upper x y eps = .ok none ∧ p.check .lower x y eps = .ok none)) := by
  refine ⟨fun hsize scope => ?_, fun hnu hnl => ?_⟩
  · rw [check_steps, point_of_wrongSize hx hy hsize]
    rfl
  · obtain ⟨hupper, hlower, hboth⟩ := check_of_point (point_of_reads hx hy hnu hnl) eps
    obtain ⟨low, hlow, hlowiff⟩ := lowerVerdict_decides hp hd hnu hnl he
    rw [hupper, hlower, hboth]
    refine ⟨fun hout => ?_, upperVerdict_decides hp hd hJ hnu hnl he, ⟨low, hlow, hlowiff⟩,
      fun f => ?_, ?_⟩
    · obtain ⟨j, hj, hjout, herr⟩ := indicesInRange_of_exists (α := Extended) hout
      rw [← hJ] at herr
      exact ⟨j, hj, hjout, upperVerdict_of_outOfRange herr⟩
    · rw [hlow]
      cases p.upperVerdict (xs.map finite) (ys.map finite) eps with
      | error f' => exact Iff.rfl
      | ok r =>
        cases r with
        | none => exact iff_of_false (fun h => by cases h) fun h => by cases h
        | some r => exact iff_of_false (fun h => by cases h) fun h => by cases h
    · cases p.upperVerdict (xs.map finite) (ys.map finite) eps with
      | error f' => exact iff_of_false (fun h => by cases h) fun h => by cases h.1
      | ok r =>
        cases r with
        | none => exact ⟨fun h => ⟨rfl, h⟩, fun h => h.2⟩
        | some r => exact iff_of_false (fun h => by cases h) fun h => by cases h.1

/-- Bounds and right-hand sides of all kinds, and one integer variable that is listed twice. -/
def mixedProgram : Program Extended where
  cx := [finite 1, finite 1]
  cy := [finite 2]
  G := [[finite 1, finite 0]]
  H := [[finite 1]]
  q := [finite 3]
  d := [finite 3]
  A := [[finite 1, finite 1]]
  B := [[finite 1]]
  b := [infinite false]
  F := [[finite 0], [finite 0]]
  Jx := [.int 1, .int 1]
  xBox := ⟨[finite 0, infinite true], [infinite false, finite 3]⟩
  yBox := ⟨[finite 1], [infinite false]⟩

theorem shaped_mixedProgram : mixedProgram.Shaped where
  d_length := rfl
  xl_length := rfl
  xu_length := rfl
  yl_length := rfl
  yu_length := rfl
  G_shape := ⟨rfl, by decide⟩
  H_shape := ⟨rfl, by decide⟩
  A_shape := ⟨rfl, by decide⟩
  B_shape := ⟨rfl, by decide⟩
  F_shape := ⟨rfl, by decide⟩

theorem definite_mixedProgram : mixedProgram.Definite where
  G_finite := by decide
  H_finite := by decide
  A_finite := by decide
  B_finite := by decide
  q_defined := by decide
  b_defined := by decide
  xBox_defined := by
    intro side
    cases side <;> decide
  yBox_defined := by
    intro side
    cases side <;> decide

theorem check_mixedProgram :
    mixedProgram.check .both (.list [.int 2, .real (finite (5 / 2))]) (.list [.int 1]) none =
      .ok none ∧
    mixedProgram.UpperFeasible [1, 1] [2, 5 / 2] [1] (1 / 10000000) := by
  have hx : Datum.Reads (.list [.int 2, .real (finite (5 / 2))]) [2, 5 / 2] := rfl
  have hy : Datum.Reads (.list [.int 1]) [1] := rfl
  have hJ : mixedProgram.Jx = [1, 1].map Datum.int := rfl
  have he : Tolerance.ofRequest (none : Option (Datum Extended)) =
      .ok (.number (finite (1 / 10000000))) := rfl
  obtain ⟨-, h⟩ := check_decides shaped_mixedProgram definite_mixedProgram hJ hx hy he
  obtain ⟨-, hupper, -, -, hboth⟩ := h rfl rfl
  obtain ⟨r, hr, hiff⟩ := hupper (by decide)
  have haccept : mixedProgram.check .both (.list [.int 2, .real (finite (5 / 2))])
      (.list [.int 1]) none = .ok none := by cbv
  have hnone : r = none := by
    rw [(hboth.1 haccept).1] at hr
    cases hr
    rfl
  exact ⟨haccept, hiff.1 hnone⟩

end Program
end Bilevel
