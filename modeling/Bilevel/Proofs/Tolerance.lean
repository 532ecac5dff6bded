import Bilevel.Proofs.Exact.Faithful
import Bilevel.Proofs.Feasibility

/-!
# Bilevel.Proofs.Tolerance

What is accepted stays accepted under larger tolerances and wider bounds.

* `Box.Inside`: one box lies inside another, bound by bound, infinite bounds included.
* `boundsHold_of_le` is about one box and all tolerances. `boundsHold_of_inside` is about two boxes;
  there the smaller tolerance must not be infinity, under which two infinite bounds can have a
  difference that is undefined.
* `check_of_le` and `check_of_inside` say the same of checks, family by family.
-/

namespace Bilevel

open Linear

/-- One box lies inside another. Undefined bounds lie nowhere. -/
structure Box.Inside {α : Type} [Scalar α] (box outer : Box α) : Prop where
  lower : List.Forall₂ (fun low low' => Scalar.le low' low = true) box.lower outer.lower
  upper : List.Forall₂ (fun high high' => Scalar.le high high' = true) box.upper outer.upper

/-- The tolerance zero as it is handed in. -/
theorem Tolerance.ofRequest_zero :
    ofRequest (some (.int 0) : Option (Datum Extended)) = .ok (.number (.finite 0)) := rfl

namespace Program

variable {α : Type} [Scalar α] [Faithful α] {p p' : Program α} {a b : α}
  {eps eps' : Option (Datum α)} {x y : Row α}

/-! ## Family by family -/

theorem all_le_of_le (hab : Scalar.le a b = true) {r : Row α}
    (h : (r.all fun c => Scalar.le c a) = true) : (r.all fun c => Scalar.le c b) = true := by
  rw [List.all_eq_true] at h ⊢
  exact fun c hc => Faithful.le_trans (h c hc) hab

theorem boundsHold_of_le (hab : Scalar.le a b = true) {box : Box α} {v : Row α}
    (h : boundsHold box v a = true) : boundsHold box v b = true := by
  rw [boundsHold, Bool.and_eq_true, List.all_eq_true, List.all_eq_true] at h ⊢
  refine ⟨fun c hc => ?_, fun c hc => ?_⟩
  · exact Faithful.le_trans (Faithful.neg_le_neg_of_le hab) (h.1 c hc)
  · exact Faithful.le_trans (h.2 c hc) hab

/-- Two boxes and two tolerances: a difference from the wider bound is the more generous one. -/
theorem boundsHold_of_inside (hab : Scalar.le a b = true) (ha : Faithful.exact a ≠ .infinite false)
    {box outer : Box α} {v : Row α} (hlow : box.lower.length = v.length)
    (hhigh : box.upper.length = v.length) (hin : box.Inside outer) (h : boundsHold box v a = true) :
    boundsHold outer v b = true := by
  have hfin := isFinite_of_boundsHold ha hlow hhigh h
  rw [boundsHold, Bool.and_eq_true, List.all_eq_true, List.all_eq_true] at h ⊢
  constructor
  · rintro ⟨c, low'⟩ hmem
    obtain ⟨i, hi⟩ := List.mem_iff_getElem?.1 hmem
    obtain ⟨hc, hlow'⟩ := List.getElem?_zip_eq_some.1 hi
    obtain ⟨hlt', rfl⟩ := List.getElem?_eq_some_iff.1 hlow'
    have hlt : i < box.lower.length := hin.lower.length_eq ▸ hlt'
    have hle := h.1 (c, box.lower[i]) (List.mem_iff_getElem?.2
      ⟨i, List.getElem?_zip_eq_some.2 ⟨hc, List.getElem?_eq_getElem hlt⟩⟩)
    exact Faithful.le_trans (Faithful.le_trans (Faithful.neg_le_neg_of_le hab) hle)
      (Faithful.sub_le_sub_left (hfin c (List.mem_of_getElem? hc)) (hin.lower.get hlt hlt'))
  · rintro ⟨c, high'⟩ hmem
    obtain ⟨i, hi⟩ := List.mem_iff_getElem?.1 hmem
    obtain ⟨hc, hhigh'⟩ := List.getElem?_zip_eq_some.1 hi
    obtain ⟨hlt', rfl⟩ := List.getElem?_eq_some_iff.1 hhigh'
    have hlt : i < box.upper.length := hin.upper.length_eq ▸ hlt'
    have hle := h.2 (c, box.upper[i]) (List.mem_iff_getElem?.2
      ⟨i, List.getElem?_zip_eq_some.2 ⟨hc, List.getElem?_eq_getElem hlt⟩⟩)
    exact Faithful.le_trans (Faithful.le_trans
      (Faithful.sub_le_sub_left (hfin c (List.mem_of_getElem? hc)) (hin.upper.get hlt hlt')) hle) hab

theorem firstFractional_of_le (hab : Scalar.le a b = true) {v : Row α}
    {J : List (Datum α)} (h : firstFractional v a J = .ok none) :
    firstFractional v b J = .ok none := by
  induction J with
  | nil => rfl
  | cons j J ih =>
    rw [firstFractional_cons] at h ⊢
    cases hv : (position? j).bind fun i => v[i]? with
    | none =>
      rw [hv] at h
      cases h
    | some c =>
      simp only [hv] at h ⊢
      cases hfar : Scalar.distance? c with
      | none =>
        rw [hfar] at h
        cases h
      | some far =>
        simp only [hfar] at h ⊢
        -- what is not far under the smaller tolerance is not far under the larger one
        by_cases hb : Scalar.lt b far = true
        · rw [if_pos (Faithful.lt_of_le_of_lt hab hb)] at h
          cases h
        · rw [if_neg hb]
          split at h
          · cases h
          · exact ih h

/-! ## Level by level -/

section Levels

variable (hp : p'.toCoefficients = p.toCoefficients) (he : Tolerance.ofRequest eps = .ok (.number a))
  (he' : Tolerance.ofRequest eps' = .ok (.number b)) (hab : Scalar.le a b = true)

include hp he he' hab

theorem upperVerdict_of_le (hbox : boundsHold p.xBox x a = true → boundsHold p'.xBox x b = true)
    (h : p.upperVerdict x y eps = .ok none) : p'.upperVerdict x y eps' = .ok none := by
  have hnu : p'.nu = p.nu := congrArg (fun c => c.cx.length) hp
  cases hJ : indicesInRange p.nu p.Jx with
  | error f =>
    rw [upperVerdict_of_outOfRange hJ] at h
    cases h
  | ok _ =>
    have hJ' : indicesInRange p'.nu p'.Jx = .ok () := by rw [hnu, hp, hJ]
    rw [upperVerdict_of_number hJ he] at h
    rw [upperVerdict_of_number hJ' he', hp]
    split at h
    · rename_i hrows
      split at h
      · rename_i hbounds
        rw [if_pos (all_le_of_le hab hrows), if_pos (hbox hbounds)]
        exact firstFractional_of_le hab h
      · cases h
    · cases h

theorem lowerVerdict_of_le (hbox : boundsHold p.yBox y a = true → boundsHold p'.yBox y b = true)
    (h : p.lowerVerdict x y eps = .ok none) : p'.lowerVerdict x y eps' = .ok none := by
  rw [lowerVerdict_of_number he] at h
  rw [lowerVerdict_of_number he', hp]
  split at h
  · rename_i hrows
    split at h
    · rename_i hbounds
      rw [if_pos (all_le_of_le hab hrows), if_pos (hbox hbounds)]
    · cases h
  · cases h

/-- Coefficients are the same, and so are points and rows; bounds are all that can differ. -/
theorem check_of_boundsHold {scope : Scope} {u v : Datum α}
    (hx : ∀ x y, p.point u v = .ok (x, y) → boundsHold p.xBox x a = true →
      boundsHold p'.xBox x b = true)
    (hy : ∀ x y, p.point u v = .ok (x, y) → boundsHold p.yBox y a = true →
      boundsHold p'.yBox y b = true)
    (h : p.check scope u v eps = .ok none) : p'.check scope u v eps' = .ok none := by
  obtain ⟨x, y, hpoint⟩ := exists_point_of_check h
  have hpoint' : p'.point u v = .ok (x, y) := by
    rw [← hpoint]
    unfold point nu nl
    rw [hp]
  obtain ⟨hupper, hlower, hboth⟩ := check_of_point hpoint eps
  obtain ⟨hupper', hlower', hboth'⟩ := check_of_point hpoint' eps'
  cases scope with
  | upper =>
    rw [hupper] at h
    rw [hupper']
    exact upperVerdict_of_le hp he he' hab (hx x y hpoint) h
  | lower =>
    rw [hlower] at h
    rw [hlower']
    exact lowerVerdict_of_le hp he he' hab (hy x y hpoint) h
  | both =>
    rw [hboth] at h
    obtain ⟨verdict, hu, h⟩ := exists_of_bind h
    cases verdict with
    | some r => cases h
    | none =>
      rw [hboth', upperVerdict_of_le hp he he' hab (hx x y hpoint) hu]
      exact lowerVerdict_of_le hp he he' hab (hy x y hpoint) h

/-- A point that is accepted stays accepted if the bounds get wider as well. -/
theorem check_of_inside (hshape : p.Shaped) (hx : p.xBox.Inside p'.xBox) (hy : p.yBox.Inside p'.yBox)
    (ha : Faithful.exact a ≠ .infinite false) {scope : Scope} {u v : Datum α}
    (h : p.check scope u v eps = .ok none) : p'.check scope u v eps' = .ok none := by
  apply check_of_boundsHold hp he he' hab _ _ h
  · intro x y hpoint hbounds
    obtain ⟨s, -, hs, -, hsize, -, rfl, -⟩ := exists_of_point hpoint
    have hlength := Datum.length_row hs hsize
    exact boundsHold_of_inside hab ha (hshape.xl_length.trans hlength.symm)
      (hshape.xu_length.trans hlength.symm) hx hbounds
  · intro x y hpoint hbounds
    obtain ⟨-, t, -, ht, -, hsize, -, rfl⟩ := exists_of_point hpoint
    have hlength := Datum.length_row ht hsize
    exact boundsHold_of_inside hab ha (hshape.yl_length.trans hlength.symm)
      (hshape.yu_length.trans hlength.symm) hy hbounds

end Levels

/-- A point that is accepted stays accepted under a larger tolerance. -/
theorem check_of_le (he : Tolerance.ofRequest eps = .ok (.number a))
    (he' : Tolerance.ofRequest eps' = .ok (.number b)) (hab : Scalar.le a b = true) {scope : Scope}
    {u v : Datum α} (h : p.check scope u v eps = .ok none) : p.check scope u v eps' = .ok none :=
  check_of_boundsHold rfl he he' hab (fun _ _ _ => boundsHold_of_le hab)
    (fun _ _ _ => boundsHold_of_le hab) h

end Program
end Bilevel
