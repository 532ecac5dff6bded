import Bilevel.Program.Build
import Bilevel.Proofs.Runs
import Mathlib.Tactic.Ring

/-!
# Bilevel.Proofs.Arrays

Rectangular arrays have as many entries as their shape says.

* `length_entries`: an array that a value became has the product of its dimensions as the number of
  its entries. It rests on `length_leaves`, which follows a value and its lists.
* `exists_toTensor`, `exists_leaf_of_mem`: a value of some shape becomes an array if each of its leaves
  becomes a number, and the array holds no other numbers.
* `hasShape_slices`: an array of so many entries falls into rows of one length.
* `shape_asMatrix_iff`: an empty row counts as a matrix without rows, of whatever width.
* `getElem?_foldl_set`: one value written at several places, one after the other.
-/

namespace Bilevel

theorem getElem?_foldl_set {β : Type} (one : β) (numbers : List Nat) (y : List β) (i : Nat) :
    (numbers.foldl (fun y e => y.set e one) y)[i]? =
      if i ∈ numbers then y[i]?.map fun _ => one else y[i]? := by
  induction numbers generalizing y with
  | nil => rw [if_neg List.not_mem_nil]; rfl
  | cons e numbers ih =>
    rw [List.foldl_cons, ih, List.getElem?_set']
    by_cases hi : i ∈ numbers
    · rw [if_pos hi, if_pos (List.mem_cons_of_mem e hi)]
      split
      · cases y[i]? with
        | none => rfl
        | some a => rfl
      · rfl
    · rw [if_neg hi]
      by_cases he : e = i
      · rw [if_pos he, if_pos (List.mem_cons.2 (.inl he.symm))]
        rfl
      · rw [if_neg he, if_neg fun h => (List.mem_cons.1 h).elim (fun h => he h.symm) hi]

namespace Datum

variable {α : Type}

mutual

/-- A value of some shape has as many entries as the shape says. -/
theorem length_leaves :
    ∀ (d : Datum α) (s : Shape), d.shape? = some s → d.leaves.length = s.prod
  | .list [], s, h => by
    cases h
    rfl
  | .list (d :: rest), s, h => by
    rw [shape?] at h
    cases hd : d.shape? with
    | none => simp [hd] at h
    | some t =>
      simp only [hd] at h
      split at h
      · rename_i hrest
        cases h
        rw [leaves, leavesOf, List.length_append, length_leaves d t hd,
          length_leavesOf rest t hrest, List.prod_cons]
        ring
      · cases h
  | .null, s, h => by
    cases h
    rfl
  | .bool _, s, h => by
    cases h
    rfl
  | .int _, s, h => by
    cases h
    rfl
  | .real _, s, h => by
    cases h
    rfl
  | .text _, s, h => by
    cases h
    rfl
  | .object _, s, h => by
    cases h
    rfl

theorem length_leavesOf :
    ∀ (ds : List (Datum α)) (s : Shape), allShaped s ds = true →
      (leavesOf ds).length = ds.length * s.prod
  | [], s, h => by simp [leavesOf]
  | d :: rest, s, h => by
    rw [allShaped, Bool.and_eq_true, beq_iff_eq] at h
    rw [leavesOf, List.length_append, length_leaves d s h.1, length_leavesOf rest s h.2,
      List.length_cons]
    ring

end

/-- The shape of a list of values of one shape. -/
theorem shape?_list {ds : List (Datum α)} {s : Shape} (h : ∀ d ∈ ds, d.shape? = some s) :
    (Datum.list ds).shape? = some (if ds = [] then [0] else ds.length :: s) := by
  cases ds with
  | nil => rfl
  | cons d ds =>
    obtain ⟨hd, hds⟩ := List.forall_mem_cons.1 h
    rw [shape?, hd]
    simp only
    rw [if_pos ((allShaped_iff s ds).2 hds), if_neg (List.cons_ne_nil d ds)]
    rfl

theorem shape?_singleton (d : Datum α) : (Datum.list [d]).shape? = d.shape?.map (1 :: ·) := by
  rw [shape?]
  cases d.shape? with
  | none => rfl
  | some s => rfl

/-- Only what is no list has no dimensions. -/
theorem leaves_of_shape? {d : Datum α} (h : d.shape? = some []) : d.leaves = [d] := by
  cases d with
  | list items =>
    cases items with
    | nil => cases h
    | cons e items =>
      rw [shape?] at h
      split at h
      · split at h
        · cases h
        · cases h
      · cases h
  | _ => rfl

variable [Scalar α]

theorem length_entries {d : Datum α} {t : Tensor α} (h : d.toTensor = .ok t) :
    t.entries.length = t.shape.prod := by
  unfold toTensor at h
  cases hs : d.shape? with
  | none =>
    rw [hs] at h
    cases h
  | some s =>
    simp only [hs] at h
    split at h
    · cases h
    · obtain ⟨xs, hm, h⟩ := exists_of_bind h
      cases h
      exact (length_of_mapM_ok hm).trans (length_leaves d s hs)

theorem exists_toTensor {d : Datum α} {s : Shape} (hs : d.shape? = some s)
    (hdims : s.length ≤ maxDims) (h : ∀ e ∈ d.leaves, ∃ v, e.toScalar = .ok v) :
    ∃ t, d.toTensor = .ok t ∧ t.shape = s := by
  obtain ⟨vs, hvs⟩ := forall₂_of_forall h
  refine ⟨⟨s, vs⟩, ?_, rfl⟩
  rw [toTensor, hs]
  simp only
  rw [if_neg hdims.not_gt, mapM_eq_ok_iff.2 hvs]
  rfl

theorem exists_leaf_of_mem {d : Datum α} {t : Tensor α} (h : d.toTensor = .ok t) :
    ∀ v ∈ t.entries, ∃ e ∈ d.leaves, e.toScalar = .ok v := by
  unfold toTensor at h
  split at h
  · cases h
  · split at h
    · cases h
    · obtain ⟨vs, hvs, h⟩ := exists_of_bind h
      cases h
      exact (exists_of_forall₂ (mapM_eq_ok_iff.1 hvs)).2

/-- A single number in a list is a row of one entry. -/
theorem toTensor_singleton {d : Datum α} {v : α} (h : d.toScalar = .ok v) :
    (Datum.list [d]).toTensor = .ok ⟨[1], [v]⟩ := by
  have hscalar : d.shape? = some [] := by
    cases d with
    | list items => cases h
    | object fields => cases h
    | _ => rfl
  have hleaves : (Datum.list [d]).leaves.mapM toScalar = .ok [v] := by
    rw [leaves, leavesOf, leaves_of_shape? hscalar, List.singleton_append, leavesOf, List.mapM_cons, h]
    rfl
  rw [toTensor, shape?_singleton, hscalar]
  simp only [Option.map_some, hleaves]
  rfl

/-- Nothing else in a list makes it a row. -/
theorem exists_toScalar_of_singleton {d : Datum α} {t : Tensor α} {n : Nat}
    (h : (Datum.list [d]).toTensor = .ok t) (hs : t.shape = [n]) : ∃ v, d.toScalar = .ok v := by
  unfold toTensor at h
  split at h
  · cases h
  · rename_i shape hshape
    split at h
    · cases h
    · obtain ⟨vs, hvs, h⟩ := exists_of_bind h
      cases h
      rw [shape?_singleton, Option.map_eq_some_iff] at hshape
      obtain ⟨s, hd, hcons⟩ := hshape
      have hnil : s = [] := (List.cons.inj (hcons.trans hs)).2
      have hleaf : d ∈ (Datum.list [d]).leaves := by
        rw [leaves, leavesOf, leaves_of_shape? (hnil ▸ hd)]
        exact List.mem_cons_self
      obtain ⟨v, -, hv⟩ := (exists_of_forall₂ (mapM_eq_ok_iff.1 hvs)).1 d hleaf
      exact ⟨v, hv⟩

theorem length_row {d : Datum α} {t : Tensor α} {n : Nat} (h : d.toTensor = .ok t)
    (hs : t.shape = [n]) : t.entries.length = n := by
  rw [length_entries h, hs]
  simp

end Datum

/-- An entry of a matrix by its row and its column. -/
def Rows.item? {α : Type} (m : Rows α) (i j : Nat) : Option α :=
  m[i]?.bind fun row => row[j]?

theorem Rows.hasShape_replicate {α : Type} (rows columns : Nat) (x : α) :
    Rows.HasShape (List.replicate rows (List.replicate columns x)) rows columns := by
  refine ⟨List.length_replicate, fun r hr => ?_⟩
  rw [(List.mem_replicate.1 hr).2, List.length_replicate]

namespace Tensor

variable {α : Type}

theorem hasShape_slices (width : Nat) :
    ∀ (count : Nat) (entries : List α), entries.length = count * width →
      Rows.HasShape (slices width count entries) count width := by
  intro count
  induction count with
  | zero => exact fun _ _ => ⟨rfl, fun r hr => by cases hr⟩
  | succ count ih =>
    intro entries h
    have hdrop : (entries.drop width).length = count * width := by
      rw [List.length_drop, h, Nat.succ_mul, Nat.add_sub_cancel]
    have hrest := ih (entries.drop width) hdrop
    refine ⟨?_, ?_⟩
    · rw [slices, List.length_cons, hrest.length_eq]
    · intro r hr
      rw [slices, List.mem_cons] at hr
      rcases hr with rfl | hr
      · rw [List.length_take, h, Nat.succ_mul]
        exact Nat.min_eq_left (Nat.le_add_left _ _)
      · exact hrest.row_length r hr

theorem mem_of_mem_slices (width : Nat) :
    ∀ (count : Nat) (entries : List α), ∀ r ∈ slices width count entries, ∀ v ∈ r, v ∈ entries := by
  intro count
  induction count with
  | zero => exact fun _ _ hr => absurd hr List.not_mem_nil
  | succ count ih =>
    intro entries r hr v hv
    rcases List.mem_cons.1 hr with rfl | hr
    · exact List.mem_of_mem_take hv
    · exact List.mem_of_mem_drop (ih _ r hr v hv)

theorem mem_of_mem_asMatrix {t : Tensor α} {columns : Nat} {v : α}
    (h : v ∈ (t.asMatrix columns).entries) : v ∈ t.entries := by
  unfold asMatrix at h
  split at h
  · exact absurd h List.not_mem_nil
  · exact h

theorem shape_asMatrix_iff (t : Tensor α) (rows columns : Nat) :
    (t.asMatrix columns).shape = [rows, columns] ↔
      t.shape = [rows, columns] ∨ (t.shape = [0] ∧ rows = 0) := by
  unfold asMatrix
  by_cases h : t.shape = [0]
  · rw [if_pos h, h]
    simp [eq_comm]
  · rw [if_neg h]
    simp [h]

theorem length_entries_asMatrix {t : Tensor α} (h : t.entries.length = t.shape.prod)
    (columns : Nat) :
    (t.asMatrix columns).entries.length = (t.asMatrix columns).shape.prod := by
  unfold asMatrix
  by_cases h0 : t.shape = [0]
  · rw [if_pos h0]
    simp
  · rw [if_neg h0]
    exact h

/-- The rows of an array that has the shape of a matrix. -/
theorem hasShape_rows {t : Tensor α} {rows columns : Nat} (h : t.entries.length = t.shape.prod)
    (hs : (t.asMatrix columns).shape = [rows, columns]) :
    Rows.HasShape ((t.asMatrix columns).rows rows columns) rows columns := by
  apply hasShape_slices
  rw [length_entries_asMatrix h, hs]
  simp

end Tensor
end Bilevel
