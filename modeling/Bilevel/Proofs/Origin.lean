import Bilevel.Program.Bounds
import Bilevel.Proofs.Tolerance

/-!
# Bilevel.Proofs.Origin

Points whose coordinates are all zero.

* `IsOrigin`: all coordinates are read as zero. Which zeros they are makes no difference.
* `apply_origin`: products of finite numbers with them are zero, however they are added up.
* `excess_le_of_origin`: rows whose right-hand sides are not below zero hold there.
* `boundsHold_origin_iff`: bounds from zero to one number for all hold there exactly if the number,
  taken with the other sign, is at most the tolerance.
* `Boxed`: a program with such rows and bounds. `check_origin`: if no integer index is out of range, it
  accepts the origin exactly if that is the case on each level that has variables.
-/

namespace Bilevel

open Scalar Linear Faithful

variable {α : Type} [Scalar α] [Faithful α]

/-- All coordinates are zero. -/
def IsOrigin (x : Row α) : Prop :=
  ∀ a ∈ x, exact a = .finite 0

theorem isOrigin_replicate (n : Nat) : IsOrigin (List.replicate n (zero : α)) := fun a ha => by
  rw [(List.mem_replicate.1 ha).2]
  exact exact_zero

/-! ## Rows -/

section Rows

variable {a b : α}

theorem exact_mul_zero (ha : (exact a).IsFinite) (hb : exact b = .finite 0) :
    exact (mul a b) = .finite 0 := by
  obtain ⟨q, hq⟩ := ha
  rw [exact_mul, hq, hb, Extended.mul_finite, mul_zero, Faithful.round_zero]

theorem exact_add_zero (ha : exact a = .finite 0) (hb : exact b = .finite 0) :
    exact (add a b) = .finite 0 := by
  rw [exact_add, ha, hb, Extended.add_finite, add_zero, Faithful.round_zero]

theorem exact_foldl_add {r : Row α} (h : IsOrigin r) (ha : exact a = .finite 0) :
    exact (r.foldl add a) = .finite 0 := by
  induction r generalizing a with
  | nil => exact ha
  | cons b r ih =>
    obtain ⟨hb, hr⟩ := List.forall_mem_cons.1 h
    exact ih hr (exact_add_zero ha hb)

theorem exact_sum {r : Row α} (h : IsOrigin r) : exact (sum r) = .finite 0 := by
  unfold sum
  split
  · exact h _ (List.mem_singleton.2 rfl)
  · exact exact_foldl_add h exact_zero

theorem exact_dot {r x : Row α} (hr : ∀ a ∈ r, (exact a).IsFinite) (hx : IsOrigin x) :
    exact (dot r x) = .finite 0 := by
  refine exact_sum fun c hc => ?_
  rw [← List.map_uncurry_zip_eq_zipWith] at hc
  obtain ⟨⟨a, b⟩, hab, rfl⟩ := List.mem_map.1 hc
  obtain ⟨ha, hb⟩ := List.of_mem_zip hab
  exact exact_mul_zero (hr a ha) (hx b hb)

theorem eq_zero_of_exact {w : α} (hw : exact w = .finite 0) : eq w zero = true := by
  unfold eq
  rw [le_eq w, le_eq zero w, hw, exact_zero]
  rfl

theorem scaled_origin {w : α} (hw : exact w = .finite 0) {r : Row α}
    (hr : ∀ a ∈ r, (exact a).IsFinite) : IsOrigin (scaled w r) := by
  unfold scaled
  split
  · rename_i a
    intro c hc
    rw [List.mem_singleton.1 hc, exact_mul, hw]
    obtain ⟨q, hq⟩ := hr a (List.mem_singleton.2 rfl)
    rw [hq, Extended.mul_finite, zero_mul, Faithful.round_zero]
  · intro c hc
    obtain ⟨a, -, rfl⟩ := List.mem_map.1 hc
    rw [if_pos (eq_zero_of_exact hw)]
    exact exact_zero

theorem isFinite_column {m : Rows α} (hm : ∀ r ∈ m, ∀ a ∈ r, (exact a).IsFinite) (j : Nat) :
    ∀ a ∈ column m j, (exact a).IsFinite := by
  intro c hc
  obtain ⟨r, hr, rfl⟩ := List.mem_map.1 hc
  rw [List.getD_eq_getElem?_getD]
  cases hj : r[j]? with
  | none => exact ⟨0, exact_zero⟩
  | some a => exact hm r hr a (List.mem_of_getElem? hj)

/-- A matrix of finite numbers leads the origin to zero. -/
theorem apply_origin {m : Rows α} (hm : ∀ r ∈ m, ∀ a ∈ r, (exact a).IsFinite) {x : Row α}
    (hx : IsOrigin x) : IsOrigin (apply m x) := by
  unfold apply
  split
  · exact scaled_origin (hx _ (List.mem_singleton.2 rfl)) (isFinite_column hm 0)
  · intro c hc
    obtain ⟨r, hr, rfl⟩ := List.mem_map.1 hc
    exact exact_dot (hm r hr) hx

end Rows

namespace Program

/-- The coefficients are finite, and no right-hand side is below zero. -/
structure RowsAdmitOrigin (m n : Rows α) (rhs : Row α) : Prop where
  left : ∀ r ∈ m, ∀ a ∈ r, (exact a).IsFinite
  right : ∀ r ∈ n, ∀ a ∈ r, (exact a).IsFinite
  rhs : ∀ c ∈ rhs, le zero c = true

variable {e : α}

theorem excess_le_of_origin {m n : Rows α} {rhs x y : Row α} (h : RowsAdmitOrigin m n rhs)
    (hx : IsOrigin x) (hy : IsOrigin y) (he : le zero e = true) :
    (excess m n rhs x y).all (fun v => le v e) = true := by
  rw [List.all_eq_true]
  intro v hv
  obtain ⟨⟨a, b, c⟩, habc, rfl⟩ := List.mem_map.1 hv
  obtain ⟨ha, hbc⟩ := List.of_mem_zip habc
  obtain ⟨hb, hc⟩ := List.of_mem_zip hbc
  have hab : exact (add a b) = .finite 0 :=
    exact_add_zero (apply_origin h.left hx a ha) (apply_origin h.right hy b hb)
  have hc0 : le (sub (add a b) c) (sub (add a b) zero) = true :=
    sub_le_sub_left ⟨0, hab⟩ (h.rhs c hc)
  have h00 : exact (sub (add a b) zero) = .finite 0 := by
    rw [exact_sub, hab, exact_zero, Extended.sub_finite, sub_zero, Faithful.round_zero]
  refine Faithful.le_trans hc0 ?_
  rw [le_eq, h00, ← exact_zero (α := α), ← le_eq]
  exact he

theorem neg_le_sub_of_origin {a b : α} (he : le zero e = true) (ha : exact a = .finite 0)
    (hb : exact b = .finite 0) : le (neg e) (sub a b) = true := by
  have hzero : neg (Extended.finite 0) = .finite 0 := congrArg Extended.finite neg_zero
  have hneg := Faithful.neg_le_neg_of_le he
  rw [le_eq, exact_neg zero, exact_zero, hzero] at hneg
  rw [le_eq, exact_sub, ha, hb, Extended.sub_finite, sub_zero, Faithful.round_zero]
  exact hneg

theorem sub_le_iff_of_origin {a high : α} (ha : exact a = .finite 0) :
    le (sub a high) e = le (neg high) e := by
  rw [le_eq, exact_sub, ha, Extended.zero_sub_eq, ← exact_neg, round_exact, ← le_eq]

/-- Bounds from zero to one number for all. -/
theorem boundsHold_origin_iff {n : Nat} {x : Row α} (hn : x.length = n) (hx : IsOrigin x)
    (he : le zero e = true) (high : α) :
    boundsHold ⟨List.replicate n zero, List.replicate n high⟩ x e = true ↔
      n = 0 ∨ le (neg high) e = true := by
  subst hn
  rw [boundsHold, Bool.and_eq_true, List.all_eq_true, List.all_eq_true]
  constructor
  · rintro ⟨-, h⟩
    cases x with
    | nil => exact .inl rfl
    | cons a x =>
      have ha : le (sub a high) e = true := h (a, high) List.mem_cons_self
      rw [sub_le_iff_of_origin (hx a List.mem_cons_self)] at ha
      exact .inr ha
  · intro h
    constructor
    · rintro ⟨a, b⟩ hab
      obtain ⟨ha, hb⟩ := List.of_mem_zip hab
      rw [(List.mem_replicate.1 hb).2]
      exact neg_le_sub_of_origin he (hx a ha) exact_zero
    · rintro ⟨a, b⟩ hab
      obtain ⟨ha, hb⟩ := List.of_mem_zip hab
      rw [(List.mem_replicate.1 hb).2]
      show le (sub a high) e = true
      rw [sub_le_iff_of_origin (hx a ha)]
      exact h.resolve_left (List.length_pos_of_mem ha).ne'

/-! ## Integer variables -/

theorem firstFractional_replicate_zero {α : Type} [Scalar α] {e : α}
    (hzero : distance? (zero : α) = some zero) (he : le zero e = true) {n : Nat} {J : List ℤ} (hJ : ∀ j ∈ J, 1 ≤ j ∧ j ≤ n) :
    firstFractional (List.replicate n zero) e (J.map .int) = .ok none := by
  induction J with
  | nil => rfl
  | cons j J ih =>
    obtain ⟨⟨h1, h2⟩, hJ⟩ := List.forall_mem_cons.1 hJ
    have hpos : ((position? (Datum.int j : Datum α)).bind fun i =>
        (List.replicate n (zero : α))[i]?) = some zero := by
      show (List.replicate n (zero : α))[(j - 1).toNat]? = _
      rw [List.getElem?_replicate, if_pos (by omega)]
    have hnear : lt e (zero : α) = false := by rw [lt, he, Bool.not_true, Bool.and_false]
    rw [List.map_cons, firstFractional_cons, hpos]
    simp only [hzero, hnear]
    exact ih hJ

/-! ## Checks -/

variable {p : Program α} {eps : Option (Datum α)} {J : List ℤ}

/-- Rows that admit the origin, and bounds from zero to one number for each level. -/
structure Boxed (p : Program α) (high : Level → α) : Prop where
  upperRows : RowsAdmitOrigin p.G p.H p.q
  lowerRows : RowsAdmitOrigin p.A p.B p.b
  box : ∀ l, p.box l = ⟨List.replicate (p.size l) zero, List.replicate (p.size l) (high l)⟩

variable {high : Level → α}

/-- Setting the upper bounds of a level, whether it has variables or not. -/
theorem Boxed.setAll (h : p.Boxed high) (l : Level) (v : α) :
    ∃ p', p.setAll .upper l (.real v) = .ok p' ∧ p'.toCoefficients = p.toCoefficients ∧
      p'.Boxed (Function.update high l v) := by
  unfold Program.setAll
  split
  · rename_i hsize
    refine ⟨p, rfl, rfl, h.upperRows, h.lowerRows, fun l' => ?_⟩
    by_cases hl : l' = l
    · subst hl
      rw [h.box, hsize]
      rfl
    · rw [Function.update_of_ne hl]
      exact h.box l'
  · refine ⟨_, rfl, toCoefficients_withBox .., ?_, ?_, fun l' => ?_⟩
    · rw [toCoefficients_withBox]
      exact h.upperRows
    · rw [toCoefficients_withBox]
      exact h.lowerRows
    · have hsize : (p.withBox l ((p.box l).fill .upper v)).size l' = p.size l' := by
        cases l <;> cases l' <;> rfl
      rw [hsize]
      by_cases hl : l' = l
      · subst hl
        rw [box_withBox, Function.update_self, h.box, Box.fill, List.map_replicate]
      · rw [box_withBox_of_ne _ _ hl, Function.update_of_ne hl]
        exact h.box l'

variable (h : p.Boxed high) (he : Tolerance.ofRequest eps = .ok (.number e))
  (hle : le zero e = true)

include h he hle

theorem upperVerdict_origin (hzero : distance? (zero : α) = some zero) (hJ : p.Jx = J.map .int)
    (hin : ∀ j ∈ J, 1 ≤ j ∧ j ≤ p.nu) :
    p.upperVerdict (List.replicate p.nu zero) (List.replicate p.nl zero) eps =
      .ok (if p.nu = 0 ∨ le (neg (high .upper)) e = true then none else some .upperBounds) := by
  have hrows := excess_le_of_origin h.upperRows (isOrigin_replicate p.nu) (isOrigin_replicate p.nl) hle
  have hbounds := boundsHold_origin_iff List.length_replicate (isOrigin_replicate p.nu) hle
    (high .upper)
  have hbox : p.xBox = _ := h.box .upper
  rw [upperVerdict_of_number (hJ ▸ indicesInRange_of_forall hin) he, if_pos hrows, hbox, hJ,
    firstFractional_replicate_zero hzero hle hin]
  simp only [size, hbounds]
  split <;> rfl

theorem lowerVerdict_origin :
    p.lowerVerdict (List.replicate p.nu zero) (List.replicate p.nl zero) eps =
      .ok (if p.nl = 0 ∨ le (neg (high .lower)) e = true then none else some .lowerBounds) := by
  have hrows := excess_le_of_origin h.lowerRows (isOrigin_replicate p.nu) (isOrigin_replicate p.nl) hle
  have hbounds := boundsHold_origin_iff List.length_replicate (isOrigin_replicate p.nl) hle
    (high .lower)
  have hbox : p.yBox = _ := h.box .lower
  rw [lowerVerdict_of_number he, if_pos hrows, hbox]
  simp only [size, hbounds]
  split <;> rfl

/-- A check of both levels at the origin never fails, and says what the bounds say. -/
theorem check_origin (hzero : distance? (zero : α) = some zero) (hJ : p.Jx = J.map .int)
    (hin : ∀ j ∈ J, 1 ≤ j ∧ j ≤ p.nu) {x y : Datum α}
    (hpoint : p.point x y = .ok (List.replicate p.nu zero, List.replicate p.nl zero)) :
    ∃ r, p.check .both x y eps = .ok r ∧
      (r = none ↔ (p.nu = 0 ∨ le (neg (high .upper)) e = true) ∧
        (p.nl = 0 ∨ le (neg (high .lower)) e = true)) := by
  obtain ⟨-, -, hboth⟩ := check_of_point hpoint eps
  rw [hboth, upperVerdict_origin h he hle hzero hJ hin, lowerVerdict_origin h he hle]
  by_cases hupper : p.nu = 0 ∨ le (neg (high .upper)) e = true
  · rw [if_pos hupper]
    refine ⟨_, rfl, ?_⟩
    split <;> simp_all
  · rw [if_neg hupper]
    exact ⟨_, rfl, iff_of_false (fun hr => by cases hr) fun hr => hupper hr.1⟩

end Program
end Bilevel
