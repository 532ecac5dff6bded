import Bilevel.Program.Session
import Bilevel.Proofs.Runs

/-!
# Bilevel.Proofs.Access

What a change of a bound does, and when it succeeds.

* `locate_eq_ok_iff`: a level and an integer from one to the number of variables name a bound, and
  nothing else does.
* `setBound_eq_ok_iff`: a change succeeds exactly if level and index name a bound and the value is a
  number; it puts the number there.
* `get_box_withBox_set`: all other bounds stay as they are.
-/

namespace Bilevel
namespace Program

variable {α : Type}

@[simp] theorem size_withBox (p : Program α) (level other : Level) (box : Box α) :
    (p.withBox level box).size other = p.size other := by
  cases level <;> cases other <;> rfl

theorem get_box_withBox_set (p : Program α) (l l' : Level) (side side' : Side) (i k : Nat) (v : α)
    (hi : i < ((p.box l).get side).length) :
    (((p.withBox l ((p.box l).set side i v)).box l').get side')[k]? =
      if l = l' ∧ side = side' ∧ i = k then some v else ((p.box l').get side')[k]? := by
  by_cases hl : l = l'
  · subst hl
    rw [box_withBox]
    by_cases hside : side = side'
    · subst hside
      rw [Box.get_set, List.getElem?_set]
      by_cases hk : i = k
      · rw [if_pos hk, if_pos hi, if_pos ⟨rfl, rfl, hk⟩]
      · rw [if_neg hk, if_neg fun h => hk h.2.2]
    · rw [Box.get_set_of_ne _ _ _ (Ne.symm hside), if_neg fun h => hside h.2.1]
  · rw [box_withBox_of_ne _ _ (Ne.symm hl), if_neg fun h => hl h.1]

/-- A change of one bound leaves a well-shaped program well-shaped. -/
theorem Shaped.withBox_set {p : Program α} (h : p.Shaped) (l : Level) (side : Side) (i : Nat)
    (v : α) : (p.withBox l ((p.box l).set side i v)).Shaped := by
  obtain ⟨hd, hxl, hxu, hyl, hyu, hG, hH, hA, hB, hF⟩ := h
  cases l with
  | lower =>
    cases side with
    | lower => exact ⟨hd, hxl, hxu, List.length_set.trans hyl, hyu, hG, hH, hA, hB, hF⟩
    | upper => exact ⟨hd, hxl, hxu, hyl, List.length_set.trans hyu, hG, hH, hA, hB, hF⟩
  | upper =>
    cases side with
    | lower => exact ⟨hd, List.length_set.trans hxl, hxu, hyl, hyu, hG, hH, hA, hB, hF⟩
    | upper => exact ⟨hd, hxl, List.length_set.trans hxu, hyl, hyu, hG, hH, hA, hB, hF⟩

theorem Shaped.length_get {p : Program α} (h : p.Shaped) (l : Level) (side : Side) :
    ((p.box l).get side).length = p.size l := by
  cases l with
  | lower =>
    cases side with
    | lower => exact h.yl_length
    | upper => exact h.yu_length
  | upper =>
    cases side with
    | lower => exact h.xl_length
    | upper => exact h.xu_length

theorem locate_eq_ok_iff (p : Program α) (level : LevelArg α) (index : Datum α) (l : Level)
    (i : Nat) :
    p.locate level index = .ok (l, i) ↔
      level = .member l ∧ index = .int (i + 1 : Nat) ∧ i < p.size l := by
  unfold locate
  cases level with
  | other got =>
    constructor
    · intro h
      cases h
    · rintro ⟨h, -⟩
      cases h
  | member l' =>
    cases index with
    | int j =>
      simp only
      by_cases hj : 1 ≤ j ∧ j ≤ p.size l'
      · rw [if_pos hj]
        constructor
        · intro h
          cases h
          refine ⟨rfl, ?_, by omega⟩
          rw [Int.natCast_add, Int.toNat_of_nonneg (by omega), Int.natCast_one,
            Int.sub_add_cancel]
        · rintro ⟨h, hi, -⟩
          cases h
          cases hi
          simp [pure, Except.pure]
      · rw [if_neg hj]
        constructor
        · intro h
          cases h
        · rintro ⟨h, hi, hlt⟩
          cases h
          cases hi
          exact absurd ⟨by omega, by omega⟩ hj
    | _ =>
      constructor
      · intro h
        cases h
      · rintro ⟨-, h, -⟩
        cases h

/-- Within range both bounds of a variable are read. -/
theorem bounds_eq_ok {p : Program α} {l : Level} {i : Nat} {low high : α}
    (hi : i < p.size l) (hlow : (p.box l).lower[i]? = some low)
    (hhigh : (p.box l).upper[i]? = some high) :
    p.bounds (.member l) (.int (i + 1 : Nat)) = .ok (low, high) := by
  have hloc := (p.locate_eq_ok_iff (.member l) (.int (i + 1 : Nat)) l i).2 ⟨rfl, rfl, hi⟩
  rw [bounds, hloc]
  simp only [bind, Except.bind, hlow, hhigh]
  rfl

variable [Scalar α]

/-- A change succeeds exactly if it names a bound and a number, and then this number stands there. -/
theorem setBound_eq_ok_iff (p p' : Program α) (side : Side) (level : LevelArg α)
    (index value : Datum α) :
    p.setBound side level index value = .ok p' ↔
      ∃ l i v, level = .member l ∧ index = .int (i + 1 : Nat) ∧ i < p.size l ∧
        value.toScalar = .ok v ∧ p' = p.withBox l ((p.box l).set side i v) := by
  unfold setBound
  constructor
  · intro h
    obtain ⟨⟨l, i⟩, hloc, h⟩ := exists_of_bind h
    obtain ⟨hl, hi, hlt⟩ := (p.locate_eq_ok_iff level index l i).1 hloc
    cases hv : value.toScalar with
    | error why =>
      rw [hv] at h
      cases h
    | ok v =>
      rw [hv] at h
      cases h
      exact ⟨l, i, v, hl, hi, hlt, rfl, rfl⟩
  · rintro ⟨l, i, v, hl, hi, hlt, hv, rfl⟩
    rw [(p.locate_eq_ok_iff level index l i).2 ⟨hl, hi, hlt⟩, hv]
    rfl

theorem toCoefficients_of_setAll {p p' : Program α} {side : Side} {l : Level} {value : Datum α}
    (h : p.setAll side l value = .ok p') : p'.toCoefficients = p.toCoefficients := by
  unfold setAll at h
  split at h
  · cases h
    rfl
  · split at h
    · cases h
      exact toCoefficients_withBox ..
    · cases h

end Program
end Bilevel
