import Bilevel.Proofs.Double.Nearest
import Bilevel.Proofs.History
import Bilevel.Proofs.Tolerance

/-!
# Bilevel.Proofs.Acceptance

What checks accept among doubles, whatever the data are.

* `accepted_isFinite`: under every tolerance below infinity, undefined and negative ones included, all
  coordinates of an accepted point are finite. Integer variables are looked at only once that is
  certain, so that no check fails on them.
* `check_after_of_inside`: in two states of one program, what is accepted in the first is accepted in
  the second if there the bounds are wider and the tolerance is larger. Changes of the bounds of a
  level leave checks of the other level as they are.
-/

namespace Bilevel
namespace Program

/-! ## Finite points -/

section Finite

variable {α : Type} [Scalar α] {p : Program α} {xs ys : Row α} {J : List ℤ}
  {eps : Option (Datum α)} {e : α}

theorem exists_lowerVerdict (he : Tolerance.ofRequest eps = .ok (.number e)) :
    ∃ r, p.lowerVerdict xs ys eps = .ok r := by
  rw [lowerVerdict_of_number he]
  split
  · split <;> exact ⟨_, rfl⟩
  · exact ⟨_, rfl⟩

theorem point_of_toTensor {x y : Datum α} (hx : x.toTensor = .ok ⟨[p.nu], xs⟩)
    (hy : y.toTensor = .ok ⟨[p.nl], ys⟩) : p.point x y = .ok (xs, ys) := by
  rw [point, coordinates, coordinates, hx, hy]
  exact if_pos ⟨rfl, rfl⟩

variable [Faithful α]

/-- Every outcome after the rows and the bounds is one about finite coordinates. -/
theorem isFinite_of_upperVerdict (hp : p.Shaped) (hxs : xs.length = p.nu)
    (he : Tolerance.ofRequest eps = .ok (.number e)) (hne : Faithful.exact e ≠ .infinite false)
    {r : Option (Rejection α)} (h : p.upperVerdict xs ys eps = .ok r) (hrows : r ≠ some .upperRows)
    (hbounds : r ≠ some .upperBounds) : ∀ a ∈ xs, (Faithful.exact a).IsFinite :=
  isFinite_of_boundsHold hne (hp.xl_length.trans hxs.symm) (hp.xu_length.trans hxs.symm)
    (boundsHold_of_upperVerdict he hrows hbounds h)

/-- Over finite coordinates integer variables are decided. -/
theorem exists_firstFractional (hfin : ∀ a ∈ xs, (Faithful.exact a).IsFinite)
    (hJ : ∀ j ∈ J, 1 ≤ j ∧ j ≤ xs.length) :
    ∃ r, firstFractional xs e (J.map Datum.int) = .ok r := by
  induction J with
  | nil => exact ⟨none, rfl⟩
  | cons j J ih =>
    obtain ⟨h1, h2⟩ := hJ j List.mem_cons_self
    have hlt : (j - 1).toNat < xs.length := by omega
    obtain ⟨far, hfar⟩ := Faithful.exists_distance? (hfin _ (List.getElem_mem hlt))
    have hpos : ((position? (Datum.int j : Datum α)).bind fun i => xs[i]?) =
        some xs[(j - 1).toNat] := List.getElem?_eq_getElem hlt
    rw [List.map_cons, firstFractional_cons, hpos]
    simp only [hfar]
    split
    · exact ⟨_, rfl⟩
    · exact ih fun k hk => hJ k (List.mem_cons_of_mem j hk)

/-- With integers as indices the upper level fails on an index out of range only. -/
theorem error_of_upperVerdict (hp : p.Shaped) (hJ : p.Jx = J.map Datum.int) (hxs : xs.length = p.nu)
    (he : Tolerance.ofRequest eps = .ok (.number e)) (hne : Faithful.exact e ≠ .infinite false)
    {f : Fault α} (h : p.upperVerdict xs ys eps = .error f) :
    ∃ j ∈ J, ¬(1 ≤ j ∧ j ≤ p.nu) ∧ f = .integerIndex (.int j) p.nu := by
  by_cases hout : ∃ j ∈ J, ¬(1 ≤ j ∧ j ≤ p.nu)
  · obtain ⟨j, hj, hjout, herr⟩ := indicesInRange_of_exists (α := α) hout
    rw [← hJ] at herr
    rw [upperVerdict_of_outOfRange herr] at h
    cases h
    exact ⟨j, hj, hjout, rfl⟩
  · exfalso
    have hin : ∀ j ∈ J, 1 ≤ j ∧ j ≤ p.nu := fun j hj => not_not.1 fun hj' => hout ⟨j, hj, hj'⟩
    rw [upperVerdict_of_number (hJ ▸ indicesInRange_of_forall hin) he] at h
    split at h
    · split at h
      · rename_i hbounds
        have hfin := isFinite_of_boundsHold hne (hp.xl_length.trans hxs.symm)
          (hp.xu_length.trans hxs.symm) hbounds
        obtain ⟨r, hr⟩ := exists_firstFractional (e := e) hfin (hxs ▸ hin)
        rw [hJ, hr] at h
        cases h
      · cases h
    · cases h

end Finite

theorem exact_ne_of_ne_infinity {e : Float} (h : e ≠ Scalar.infinity) :
    Faithful.exact e ≠ .infinite false :=
  fun he => h (Double.eq_infinity he)

/-- **Finite points.** Let coefficients, right-hand sides, bounds and coordinates be any doubles, and
the tolerance any double but infinity. Then what the upper level accepts has finite `x`, what the lower
level accepts has finite `y`, and what both accept is finite. The upper level gets to the integer
variables only with finite `x`, and fails only on an integer index out of range; the lower level never
fails. -/
theorem accepted_isFinite {p : Program Float} (hp : p.Shaped) {J : List ℤ}
    (hJ : p.Jx = J.map Datum.int) {x y : Datum Float} {xs ys : Row Float}
    (hx : x.toTensor = .ok ⟨[p.nu], xs⟩) (hy : y.toTensor = .ok ⟨[p.nl], ys⟩)
    {eps : Option (Datum Float)} {e : Float} (he : Tolerance.ofRequest eps = .ok (.number e))
    (hne : e ≠ Scalar.infinity) :
    (p.check .upper x y eps = .ok none → ∀ a ∈ xs, a.isFinite = true) ∧
    (p.check .lower x y eps = .ok none → ∀ a ∈ ys, a.isFinite = true) ∧
    (p.check .both x y eps = .ok none → ∀ a ∈ xs ++ ys, a.isFinite = true) ∧
    (∀ r, p.check .upper x y eps = .ok r → r ≠ some .upperRows → r ≠ some .upperBounds →
      ∀ a ∈ xs, a.isFinite = true) ∧
    (∀ f, p.check .upper x y eps = .error f →
      ∃ j ∈ J, ¬(1 ≤ j ∧ j ≤ p.nu) ∧ f = .integerIndex (.int j) p.nu) ∧
    (∃ r, p.check .lower x y eps = .ok r) := by
  have hxs : xs.length = p.nu := Datum.length_row hx rfl
  have hys : ys.length = p.nl := Datum.length_row hy rfl
  have hinf := exact_ne_of_ne_infinity hne
  obtain ⟨hupper, hlower, hboth⟩ := check_of_point (point_of_toTensor hx hy) eps
  have hxfin : ∀ r, p.upperVerdict xs ys eps = .ok r → r ≠ some .upperRows → r ≠ some .upperBounds →
      ∀ a ∈ xs, a.isFinite = true := fun r hr hrows hbounds a ha =>
    (Double.isFinite_iff a).2 (isFinite_of_upperVerdict hp hxs he hinf hr hrows hbounds a ha)
  have hyfin : p.lowerVerdict xs ys eps = .ok none → ∀ a ∈ ys, a.isFinite = true := fun hr a ha =>
    (Double.isFinite_iff a).2 (isFinite_of_boundsHold hinf (hp.yl_length.trans hys.symm)
      (hp.yu_length.trans hys.symm) (boundsHold_of_lowerVerdict he hr) a ha)
  rw [hupper, hlower, hboth]
  refine ⟨fun h => hxfin none h (by simp) (by simp), hyfin, fun h => ?_, hxfin,
    fun f => error_of_upperVerdict hp hJ hxs he hinf, exists_lowerVerdict he⟩
  obtain ⟨verdict, hu, hl⟩ := exists_of_bind h
  cases verdict with
  | some r => cases hl
  | none =>
    intro a ha
    rcases List.mem_append.1 ha with ha | ha
    · exact hxfin none hu (by simp) (by simp) a ha
    · exact hyfin hl a ha

/-- One variable and one row on each level, with infinite bounds; the upper variable is an integer. -/
def narrowArguments : Arguments Float where
  cx := .list [.int 1]
  cy := .list [.int 1]
  G := .list [.list [.int 1]]
  H := .list [.list [.int (-1)]]
  q := .list [.int 2]
  d := .list [.int 1]
  A := .list [.list [.int 1]]
  B := .list [.list [.int 1]]
  b := .list [.text "inf"]
  Jx := .list [.int 1]

def narrowProgram : Program Float where
  cx := [Scalar.one]
  cy := [Scalar.one]
  G := [[Scalar.one]]
  H := [[Scalar.neg Scalar.one]]
  q := [Float.ofInt 2]
  d := [Scalar.one]
  A := [[Scalar.one]]
  B := [[Scalar.one]]
  b := [Scalar.infinity]
  F := [[Scalar.zero]]
  Jx := [.int 1]
  xBox := freshBox 1
  yBox := freshBox 1

theorem build_narrowArguments : build narrowArguments = .ok narrowProgram := by
  rfl

theorem accepted_narrowProgram :
    narrowProgram.check .both (.list [.int 1]) (.list [.int 0]) none = .ok none ∧
      (Scalar.one : Float).isFinite = true ∧ (Scalar.zero : Float).isFinite = true := by
  obtain ⟨hp, -⟩ := shaped_of_build build_narrowArguments
  have hJ : narrowProgram.Jx = [1].map Datum.int := rfl
  have hx : (Datum.list [.int 1] : Datum Float).toTensor = .ok ⟨[1], [Scalar.one]⟩ := by rfl
  have hy : (Datum.list [.int 0] : Datum Float).toTensor = .ok ⟨[1], [Scalar.zero]⟩ := by rfl
  have he : Tolerance.ofRequest (none : Option (Datum Float)) =
      .ok (.number (Scalar.ofNumeral Tolerance.standard)) := rfl
  have hne : (Scalar.ofNumeral Tolerance.standard : Float) ≠ Scalar.infinity := by decide +kernel
  have haccept : narrowProgram.check .both (.list [.int 1]) (.list [.int 0]) none = .ok none := by rfl
  obtain ⟨-, -, hboth, -⟩ := accepted_isFinite hp hJ hx hy he hne
  have hfinite := hboth haccept
  exact ⟨haccept, hfinite _ (by simp), hfinite _ (by simp)⟩

/-! ## Two states -/

end Program

/-- The command is a change of a bound of this level, be it refused or not. -/
def Command.Sets {α : Type} (l : Level) : Command α → Prop
  | .setBound _ level _ _ => level = .member l
  | _ => False

namespace Program

section Levels

variable {α : Type} [Scalar α] {p p' : Program α}

theorem box_perform_of_sets {l other : Level} (hl : other ≠ l) {c : Command α} (hc : c.Sets l) :
    (p.perform c).2.box other = p.box other := by
  rcases p.perform_cases c with ⟨hp, -⟩ | ⟨side, l', i, value, v, rfl, -, -, -, hp⟩
  · rw [hp]
  · cases hc
    rw [hp, box_withBox_of_ne _ _ hl]

theorem box_after_of_sets {l other : Level} (hl : other ≠ l) {cs : List (Command α)}
    (hcs : ∀ c ∈ cs, c.Sets l) : (p.after cs).box other = p.box other := by
  induction cs generalizing p with
  | nil => rfl
  | cons c cs ih =>
    rw [after_cons, ih fun d hd => hcs d (List.mem_cons_of_mem c hd),
      box_perform_of_sets hl (hcs c List.mem_cons_self)]

theorem after_append (cs ds : List (Command α)) : p.after (cs ++ ds) = (p.after cs).after ds :=
  List.foldl_append

theorem check_upper_congr (hp : p'.toCoefficients = p.toCoefficients) (hbox : p'.xBox = p.xBox)
    (x y : Datum α) (eps : Option (Datum α)) : p'.check .upper x y eps = p.check .upper x y eps := by
  obtain ⟨c, xBox, yBox⟩ := p
  obtain ⟨c', xBox', yBox'⟩ := p'
  cases hp
  cases hbox
  rfl

theorem check_lower_congr (hp : p'.toCoefficients = p.toCoefficients) (hbox : p'.yBox = p.yBox)
    (x y : Datum α) (eps : Option (Datum α)) : p'.check .lower x y eps = p.check .lower x y eps := by
  obtain ⟨c, xBox, yBox⟩ := p
  obtain ⟨c', xBox', yBox'⟩ := p'
  cases hp
  cases hbox
  rfl

end Levels

/-- **Monotonicity.** Take two states of one program. What is accepted in the first is accepted in the
second, without a fault, if each bound of the first state lies inside the one of the second and the
tolerance of the second check is at least that of the first, which is not infinity. Changes of bounds
of the lower level leave all checks of the upper level as they are, and the other way round. -/
theorem check_after_of_inside {a : Arguments Float} {p : Program Float} (hp : build a = .ok p)
    (cs : List (Command Float)) :
    (∀ cs' : List (Command Float), (p.after cs).xBox.Inside (p.after cs').xBox →
      (p.after cs).yBox.Inside (p.after cs').yBox →
      ∀ (eps eps' : Option (Datum Float)) (e e' : Float), Tolerance.ofRequest eps = .ok (.number e) →
        Tolerance.ofRequest eps' = .ok (.number e') → e ≠ Scalar.infinity → Scalar.le e e' = true →
        ∀ scope x y, (p.after cs).check scope x y eps = .ok none →
          (p.after cs').check scope x y eps' = .ok none) ∧
    (∀ ds : List (Command Float), (∀ d ∈ ds, d.Sets .lower) → ∀ x y eps,
      (p.after (cs ++ ds)).check .upper x y eps = (p.after cs).check .upper x y eps) ∧
    (∀ ds : List (Command Float), (∀ d ∈ ds, d.Sets .upper) → ∀ x y eps,
      (p.after (cs ++ ds)).check .lower x y eps = (p.after cs).check .lower x y eps) := by
  obtain ⟨hshape, -⟩ := shaped_of_build hp
  refine ⟨?_, ?_, ?_⟩
  · intro cs' hx hy eps eps' e e' he he' hne hle scope x y h
    have hcoef : (p.after cs').toCoefficients = (p.after cs).toCoefficients := by
      rw [toCoefficients_after, toCoefficients_after]
    exact check_of_inside hcoef he he' hle (hshape.after cs) hx hy (exact_ne_of_ne_infinity hne) h
  · intro ds hds x y eps
    rw [after_append]
    exact check_upper_congr (toCoefficients_after _ ds)
      (box_after_of_sets (show Level.upper ≠ Level.lower by decide) hds) x y eps
  · intro ds hds x y eps
    rw [after_append]
    exact check_lower_congr (toCoefficients_after _ ds)
      (box_after_of_sets (show Level.lower ≠ Level.upper by decide) hds) x y eps

/-- The upper variable at most one, and the tolerance zero. -/
def narrowing : List (Command Float) :=
  [.setBound .upper (.member .upper) (.int 1) (.int 1)]

theorem check_narrowProgram_after :
    (narrowProgram.after []).check .both (.list [.int 1]) (.list [.int 0]) none = .ok none ∧
    (narrowProgram.after (narrowing ++ [.setBound .lower (.member .lower) (.int 1) (.text "nan")])).check
      .upper (.list [.int 1]) (.list [.int 0]) none = .ok none ∧
    (narrowProgram.after (narrowing ++ narrowing)).check .lower (.list [.int 1]) (.list [.int 0]) none =
      .ok none := by
  have hx : (narrowProgram.after narrowing).xBox.Inside (narrowProgram.after []).xBox :=
    ⟨.cons (by rfl) .nil, .cons (by rfl) .nil⟩
  have hy : (narrowProgram.after narrowing).yBox.Inside (narrowProgram.after []).yBox :=
    ⟨.cons (by rfl) .nil, .cons (by rfl) .nil⟩
  have he : Tolerance.ofRequest (some (.int 0) : Option (Datum Float)) = .ok (.number Scalar.zero) := by
    rfl
  have he' : Tolerance.ofRequest (none : Option (Datum Float)) =
      .ok (.number (Scalar.ofNumeral Tolerance.standard)) := rfl
  have hne : (Scalar.zero : Float) ≠ Scalar.infinity := by decide +kernel
  have hle : Scalar.le (Scalar.zero : Float) (Scalar.ofNumeral Tolerance.standard) = true := by rfl
  obtain ⟨hwide, hupper, hlower⟩ := check_after_of_inside build_narrowArguments narrowing
  refine ⟨hwide [] hx hy _ _ _ _ he he' hne hle .both _ _ (by rfl), ?_, ?_⟩
  · refine (hupper _ ?_ _ _ _).trans (by rfl)
    intro d hd
    rw [List.mem_singleton.1 hd]
    rfl
  · refine (hlower _ ?_ _ _ _).trans (by rfl)
    intro d hd
    rw [List.mem_singleton.1 hd]
    rfl

end Program
end Bilevel
