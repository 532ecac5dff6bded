import Bilevel.Program.Tolerance
import Bilevel.Proofs.Arrays
import Mathlib.Algebra.BigOperators.Group.List.Lemmas

/-!
# Bilevel.Proofs.Comparing

When a row of numbers exceeds a tolerance.

* `Compared` says which number of a row is compared with which entry of an array: all with all if one of
  the two is a single column, and otherwise each row of the array entry by entry. `mem_beside_iff`: these
  are the pairs that are laid side by side.
* `Exceeds` is a single comparison, and `ExceededBy` says that all of them can be made and one fails.
* `holds_eq_false_iff`: a comparison with a tolerance that was asked for fails exactly then.
-/

namespace Bilevel

variable {α : Type}

/-- Copies of a row, one after the other: its entries come round again. -/
theorem getElem?_flatten_replicate (row : Row α) {copies k : Nat} (hk : k < copies * row.length) :
    (List.replicate copies row).flatten[k]? = row[k % row.length]? := by
  induction copies generalizing k with
  | zero =>
    rw [Nat.zero_mul] at hk
    exact absurd hk (Nat.not_lt_zero k)
  | succ copies ih =>
    rw [Nat.succ_mul] at hk
    rw [List.replicate_succ, List.flatten_cons, List.getElem?_append]
    split
    · rename_i hfirst
      rw [Nat.mod_eq_of_lt hfirst]
    · rename_i hrest
      rw [ih (by omega), ← Nat.mod_eq_sub_mod (by omega)]

theorem length_of_mapM_some {β γ : Type} {f : β → Option γ} {xs : List β} {ys : List γ}
    (h : xs.mapM f = some ys) : ys.length = xs.length := by
  induction xs generalizing ys with
  | nil =>
    cases h
    rfl
  | cons x xs ih =>
    rw [List.mapM_cons] at h
    obtain ⟨y, -, h⟩ := Option.bind_eq_some_iff.1 h
    obtain ⟨zs, hzs, h⟩ := Option.bind_eq_some_iff.1 h
    cases h
    exact congrArg (· + 1) (ih hzs)

namespace Tolerance

/-- The length of the rows of an array. -/
def width (eps : Tensor (Datum α)) : Nat :=
  eps.shape.getLastD 1

/-- A number of a row is compared with an entry of an array. -/
def Compared (row : Row α) (eps : Tensor (Datum α)) (a : α) (e : Datum α) : Prop :=
  ∃ i k, row[i]? = some a ∧ eps.entries[k]? = some e ∧
    (width eps = 1 ∨ row.length = 1 ∨ k % width eps = i)

/-- An entry that numbers can be compared with. -/
def Comparable (e : Datum α) : Prop :=
  (∃ eps, e = .real eps) ∨ ∃ n, e.whole? = some n

/-- An array has as many entries as its shape says. -/
def Regular : Tolerance α → Prop
  | .number _ => True
  | .array eps => eps.entries.length = eps.shape.prod

variable {row : Row α} {eps : Tensor (Datum α)} {pairs : List (α × Datum α)}

theorem Regular.width_dvd (h : (array eps).Regular) : width eps ∣ eps.entries.length := by
  have hlength : eps.entries.length = (1 :: eps.shape).prod := by
    rw [List.prod_cons, one_mul]
    exact h
  rw [hlength]
  exact List.dvd_prod List.getLastD_mem_cons

/-! ## Side by side -/

theorem beside_isSome_iff :
    (beside row eps).isSome ↔ width eps = 1 ∨ row.length = 1 ∨ width eps = row.length := by
  rw [← or_assoc]
  unfold beside
  dsimp only
  split
  · rename_i hsingle
    exact iff_of_true rfl (.inl hsingle)
  · rename_i hmany
    split
    · rename_i hwidth
      exact iff_of_true rfl (.inr hwidth)
    · rename_i hmisfit
      exact iff_of_false Bool.false_ne_true fun h => h.elim hmany hmisfit

theorem mem_beside_iff (hregular : (array eps).Regular) (h : beside row eps = some pairs) (a : α)
    (e : Datum α) : (a, e) ∈ pairs ↔ Compared row eps a e := by
  have hdvd := hregular.width_dvd
  have hbeside : (if width eps = 1 ∨ row.length = 1 then
      some (eps.entries.flatMap fun e => row.map fun a => (a, e))
    else if width eps = row.length then
      some ((List.replicate (eps.entries.length / width eps) row).flatten.zip eps.entries)
    else none) = some pairs := h
  split at hbeside
  · rename_i hsingle
    cases hbeside
    simp only [List.mem_flatMap, List.mem_map, Prod.mk.injEq]
    constructor
    · rintro ⟨e, he, a, ha, rfl, rfl⟩
      obtain ⟨i, hi⟩ := List.mem_iff_getElem?.1 ha
      obtain ⟨k, hk⟩ := List.mem_iff_getElem?.1 he
      exact ⟨i, k, hi, hk, or_assoc.1 (.inl hsingle)⟩
    · rintro ⟨i, k, hi, hk, -⟩
      exact ⟨e, List.mem_of_getElem? hk, a, List.mem_of_getElem? hi, rfl, rfl⟩
  · rename_i hmany
    obtain ⟨hwidth, hrow⟩ := not_or.1 hmany
    split at hbeside
    · rename_i hfits
      cases hbeside
      have hcount : eps.entries.length / width eps * row.length = eps.entries.length := by
        rw [← hfits]
        exact Nat.div_mul_cancel hdvd
      have hentry : ∀ {k}, k < eps.entries.length →
          (List.replicate (eps.entries.length / width eps) row).flatten[k]? =
            row[k % width eps]? := fun hk => by
        rw [getElem?_flatten_replicate row (by rw [hcount]; exact hk), hfits]
      rw [List.mem_iff_getElem?]
      simp only [List.getElem?_zip_eq_some]
      constructor
      · rintro ⟨k, ha, he⟩
        rw [hentry (List.getElem?_eq_some_iff.1 he).1] at ha
        exact ⟨_, k, ha, he, .inr (.inr rfl)⟩
      · rintro ⟨i, k, ha, he, hplace⟩
        obtain rfl : k % width eps = i := (hplace.resolve_left hwidth).resolve_left hrow
        exact ⟨k, (hentry (List.getElem?_eq_some_iff.1 he).1).trans ha, he⟩
    · cases hbeside

variable [Scalar α]

/-! ## One comparison -/

/-- A number is more than an entry of an array, or undefined. -/
def Exceeds (a : α) (e : Datum α) : Prop :=
  (∃ eps, e = .real eps ∧ Scalar.le a eps = false) ∨
    ∃ n, e.whole? = some n ∧ (Scalar.eq a a = false ∨ Datum.intBelow n a = true)

theorem within_eq_ok_iff {a : α} {e : Datum α} : (∃ b, within a e = .ok b) ↔ Comparable e := by
  cases e with
  | real eps => exact iff_of_true ⟨_, rfl⟩ (.inl ⟨eps, rfl⟩)
  | bool b => exact iff_of_true ⟨_, rfl⟩ (.inr ⟨_, rfl⟩)
  | int n => exact iff_of_true ⟨_, rfl⟩ (.inr ⟨n, rfl⟩)
  | null | text | list | object =>
    refine iff_of_false (fun ⟨b, hb⟩ => by cases hb) ?_
    rintro (⟨eps, h⟩ | ⟨n, h⟩) <;> cases h

theorem within_eq_false_iff {a : α} {e : Datum α} : within a e = .ok false ↔ Exceeds a e := by
  have hwhole : ∀ {n}, e.whole? = some n → (Except.ok (Scalar.eq a a && !Datum.intBelow n a) =
      (.ok false : Except (Fault α) Bool) ↔ Exceeds a e) := by
    intro n hn
    rw [Except.ok.injEq, Bool.and_eq_false_iff, Bool.not_eq_false']
    constructor
    · exact fun h => .inr ⟨n, hn, h⟩
    · rintro (⟨eps, rfl, -⟩ | ⟨n', hn', h⟩)
      · cases hn
      · cases hn.symm.trans hn'
        exact h
  cases e with
  | real eps =>
    constructor
    · exact fun h => .inl ⟨eps, rfl, Except.ok.inj h⟩
    · rintro (⟨eps', h, hle⟩ | ⟨n, h, -⟩)
      · cases h
        exact congrArg Except.ok hle
      · cases h
  | bool b => exact hwhole rfl
  | int n => exact hwhole rfl
  | null | text | list | object =>
    refine iff_of_false (fun h => by cases h) ?_
    rintro (⟨eps, h, -⟩ | ⟨n, h, -⟩) <;> cases h

/-! ## All comparisons -/

/-- Some number of the row is more than the tolerance. With an array all comparisons have to be
possible. -/
def ExceededBy (row : Row α) : Tolerance α → Prop
  | .number eps => ∃ a ∈ row, Scalar.le a eps = false
  | .array eps => (width eps = 1 ∨ row.length = 1 ∨ width eps = row.length) ∧
      (∀ a e, Compared row eps a e → Comparable e) ∧ ∃ a e, Compared row eps a e ∧ Exceeds a e

theorem holds_number_eq_true_iff {eps : α} :
    (number eps).holds row = .ok true ↔ ∀ a ∈ row, Scalar.le a eps = true := by
  rw [← List.all_eq_true]
  exact ⟨Except.ok.inj, congrArg Except.ok⟩

theorem mapM_within_eq_ok_iff {bs : List Bool} (h : pairs.mapM (fun (a, e) => within a e) = .ok bs) :
    bs.all id = false ↔ ∃ c ∈ pairs, within c.1 c.2 = .ok false := by
  obtain ⟨hleft, hright⟩ := exists_of_forall₂ (mapM_eq_ok_iff.1 h)
  rw [List.all_eq_false]
  constructor
  · rintro ⟨b, hb, hnot⟩
    obtain ⟨c, hc, hcb⟩ := hright b hb
    have hfalse : b = false := Bool.eq_false_iff.2 hnot
    exact ⟨c, hc, hfalse ▸ hcb⟩
  · rintro ⟨c, hc, hfalse⟩
    obtain ⟨b, hb, hcb⟩ := hleft c hc
    obtain rfl : b = false := Except.ok.inj (hcb.symm.trans hfalse)
    exact ⟨false, hb, Bool.false_ne_true⟩

theorem holds_eq_false_iff {t : Tolerance α} (ht : t.Regular) :
    t.holds row = .ok false ↔ t.ExceededBy row := by
  cases t with
  | number eps =>
    have hall : (row.all fun a => Scalar.le a eps) = false ↔ ∃ a ∈ row, Scalar.le a eps = false := by
      simp only [List.all_eq_false, Bool.not_eq_true]
    exact ⟨fun h => hall.1 (Except.ok.inj h), fun h => congrArg Except.ok (hall.2 h)⟩
  | array eps =>
    rw [holds, ExceededBy, ← beside_isSome_iff]
    cases hpairs : beside row eps with
    | none => exact iff_of_false (fun h => by cases h) fun h => by cases h.1
    | some pairs =>
      have hmem := mem_beside_iff ht hpairs
      constructor
      · intro h
        obtain ⟨bs, hrun, h⟩ := exists_of_bind h
        obtain ⟨c, hc, hfalse⟩ := (mapM_within_eq_ok_iff hrun).1 (Except.ok.inj h)
        refine ⟨rfl, fun a e hae => ?_, c.1, c.2, (hmem _ _).1 hc, within_eq_false_iff.1 hfalse⟩
        obtain ⟨b, -, hb⟩ := (exists_of_forall₂ (mapM_eq_ok_iff.1 hrun)).1 (a, e) ((hmem a e).2 hae)
        exact within_eq_ok_iff.1 ⟨b, hb⟩
      · rintro ⟨-, hcomparable, a, e, hae, hexceeds⟩
        obtain ⟨bs, hbs⟩ := forall₂_of_forall fun (c : α × Datum α) (hc : c ∈ pairs) =>
          within_eq_ok_iff.2 (hcomparable c.1 c.2 ((hmem c.1 c.2).1 hc))
        have hrun := mapM_eq_ok_iff.2 hbs
        have hall := (mapM_within_eq_ok_iff hrun).2
          ⟨(a, e), (hmem a e).2 hae, within_eq_false_iff.2 hexceeds⟩
        simp only [hrun]
        exact congrArg Except.ok hall

theorem regular_of_ofArray {d : Datum α} {t : Tolerance α} (h : ofArray d = .ok t) : t.Regular := by
  unfold ofArray at h
  split at h
  · cases h
  · rename_i shape hshape
    have hleaves := Datum.length_leaves d shape hshape
    split at h
    · cases h
    · split at h
      · cases h
      · split at h
        · rename_i numbers hnumbers
          cases h
          show (numbers.map Datum.real).length = shape.prod
          rw [List.length_map, length_of_mapM_some hnumbers, hleaves]
        · cases h
          exact hleaves

/-- What is asked for as a tolerance is as large as its shape says. -/
theorem regular_of_ofRequest {eps : Option (Datum α)} {t : Tolerance α} (h : ofRequest eps = .ok t) :
    t.Regular := by
  cases eps with
  | none =>
    cases h
    trivial
  | some d =>
    rw [ofRequest] at h
    cases d with
    | bool | int | real =>
      unfold ofDatum at h
      dsimp only at h
      split at h
      · cases h
        trivial
      · cases h
    | list items => exact regular_of_ofArray h
    | null | text | object => cases h

end Tolerance
end Bilevel
