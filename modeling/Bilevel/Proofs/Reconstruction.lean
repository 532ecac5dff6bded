import Bilevel.Proofs.Access
import Bilevel.Proofs.Construction

/-!
# Bilevel.Proofs.Reconstruction

A well-shaped program can be made again from its own parts.

* `Coefficients.loose` hands out the coefficients as loose arguments, and `build_loose` builds the same
  program from them, with fresh bounds.
* `Program.setEach` changes the bounds on one side of a level one after the other.
  `Shaped.setEach_eq_setAll`: that is what changing all of them does.
* `Shaped.exists_built`: from the coefficients and such changes the program itself is built.
-/

namespace Bilevel

def Coefficients.loose {α : Type} (c : Coefficients α) : Arguments α where
  cx := .vector c.cx
  cy := .vector c.cy
  G := .matrix c.G
  H := .matrix c.H
  q := .vector c.q
  d := .vector c.d
  A := .matrix c.A
  B := .matrix c.B
  b := .vector c.b
  Jx := .list c.Jx
  F := .matrix c.F

theorem Tensor.slices_flatten {α : Type} {width : Nat} {m : Rows α}
    (h : ∀ r ∈ m, r.length = width) : slices width m.length m.flatten = m := by
  induction m with
  | nil => rfl
  | cons r m ih =>
    have hr : r.length = width := h r List.mem_cons_self
    rw [List.length_cons, List.flatten_cons, slices, List.take_left' hr, List.drop_left' hr,
      ih fun s hs => h s (List.mem_cons_of_mem r hs)]

namespace Program

variable {α : Type} [Scalar α]

/-! ## Coefficients -/

/-- A matrix without rows is handed out as an empty row, and taken for a matrix again. -/
theorem exists_tensor_of_hasShape {m : Rows α} {rows columns : Nat}
    (h : Rows.HasShape m rows columns) :
    ∃ t, (Datum.matrix m).toTensor = .ok t ∧ (t.asMatrix columns).shape = [rows, columns] ∧
      (t.asMatrix columns).rows rows columns = m := by
  obtain ⟨rfl, hcolumns⟩ := h
  cases m with
  | nil => exact ⟨⟨[0], []⟩, rfl, rfl, rfl⟩
  | cons r m =>
    have hr : r.length = columns := hcolumns r List.mem_cons_self
    have hm : ∀ s ∈ m, s.length = r.length := fun s hs =>
      (hcolumns s (List.mem_cons_of_mem r hs)).trans hr.symm
    have hmatrix : Tensor.asMatrix ⟨[m.length + 1, r.length], (r :: m).flatten⟩ columns =
        ⟨[m.length + 1, r.length], (r :: m).flatten⟩ := if_neg fun h => by cases h
    refine ⟨_, Datum.toTensor_matrix r m hm, ?_, ?_⟩
    · rw [hmatrix, hr, List.length_cons]
    · rw [hmatrix]
      exact Tensor.slices_flatten hcolumns

theorem objectives_loose {p : Program α} (h : p.Shaped) :
    objectives p.toCoefficients.loose = .ok (p.cx, p.cy, p.d) := by
  rw [objectives, Coefficients.loose, array_of_ok (Datum.toTensor_vector p.cx),
    array_of_ok (Datum.toTensor_vector p.cy), array_of_ok (Datum.toTensor_vector p.d)]
  exact if_pos ⟨rfl, rfl, congrArg ([·]) h.d_length⟩

theorem constraints_of_hasShape (g : Group) (left right rhs : String) {nu nl : Nat}
    {M N : Rows α} {r : Row α} (hM : Rows.HasShape M r.length nu)
    (hN : Rows.HasShape N r.length nl) :
    constraints g nu nl (left, .matrix M) (right, .matrix N) (rhs, .vector r) = .ok (M, N, r) := by
  obtain ⟨m, hm, hms, hmr⟩ := exists_tensor_of_hasShape hM
  obtain ⟨n, hn, hns, hnr⟩ := exists_tensor_of_hasShape hN
  rw [constraints, array_of_ok (Datum.toTensor_vector r), array_of_ok hm, array_of_ok hn]
  simp only [bind, Except.bind, rowLength?]
  rw [if_pos ⟨hms, hns⟩, hmr, hnr]
  rfl

theorem quadraticTerm_of_hasShape {nu nl : Nat} {F : Rows α} (hF : Rows.HasShape F nu nl) :
    quadraticTerm nu nl (.matrix F) = .ok F := by
  obtain ⟨m, hm, hms, hmr⟩ := exists_tensor_of_hasShape hF
  rw [quadraticTerm_of_ne_null (fun h => by cases h), array_of_ok hm]
  simp only [bind, Except.bind]
  rw [if_pos hms, hmr]
  rfl

theorem build_loose {p : Program α} (h : p.Shaped) :
    build p.toCoefficients.loose =
      .ok { p with xBox := freshBox p.nu, yBox := freshBox p.nl } := by
  have hlow : constraints .lowerConstraints p.cx.length p.cy.length ("A", .matrix p.A)
      ("B", .matrix p.B) ("b", .vector p.b) = .ok (p.A, p.B, p.b) :=
    constraints_of_hasShape _ _ _ _ h.A_shape h.B_shape
  have hupp : constraints .upperConstraints p.cx.length p.cy.length ("G", .matrix p.G)
      ("H", .matrix p.H) ("q", .vector p.q) = .ok (p.G, p.H, p.q) :=
    constraints_of_hasShape _ _ _ _ h.G_shape h.H_shape
  have hqua : quadraticTerm p.cx.length p.cy.length (.matrix p.F) = .ok p.F :=
    quadraticTerm_of_hasShape h.F_shape
  rw [build_of_objectives (objectives_loose h)]
  simp only [Coefficients.loose, hlow, hupp, hqua]
  rfl

/-- The upper right-hand sides only matter as an array, and the integer indices as a sequence. -/
theorem build_congr {a a' : Arguments α} (h : a' = { a with q := a'.q, Jx := a'.Jx })
    (hq : a'.q.toTensor = a.q.toTensor) (hJx : sequence a'.Jx = sequence a.Jx) :
    build a' = build a := by
  rw [h]
  simp only [build, constraints, array, hq, hJx]
  rfl

/-! ## Bounds -/

/-- Sets the bounds on one side of all variables of a level, one after the other. -/
def setEach (p : Program α) (side : Side) (l : Level) (value : Datum α) :
    Except (Fault α) (Program α) :=
  (List.range (p.size l)).foldlM
    (fun p (i : Nat) => p.setBound side (.member l) (.int (i + 1 : Nat)) value) p

theorem setBound_of_lt {p : Program α} {l : Level} {i : Nat} {value : Datum α} {v : α}
    (hi : i < p.size l) (hv : value.toScalar = .ok v) (side : Side) :
    p.setBound side (.member l) (.int (i + 1 : Nat)) value =
      .ok (p.withBox l ((p.box l).set side i v)) :=
  (p.setBound_eq_ok_iff _ side _ _ value).2 ⟨l, i, v, rfl, rfl, hi, hv, rfl⟩

omit [Scalar α] in
theorem withBox_withBox (p : Program α) (l : Level) (box box' : Box α) :
    (p.withBox l box).withBox l box' = p.withBox l box' := by
  cases l <;> rfl

theorem foldlM_setBound {p : Program α} {l : Level} {value : Datum α} {v : α}
    (hv : value.toScalar = .ok v) (side : Side) {is : List Nat} (h : ∀ i ∈ is, i < p.size l) :
    is.foldlM
      (fun p (i : Nat) => p.setBound side (.member l) (.int (i + 1 : Nat)) value) p =
      .ok (p.withBox l (is.foldl (fun box i => box.set side i v) (p.box l))) := by
  induction is generalizing p with
  | nil => cases l <;> rfl
  | cons i is ih =>
    have hrest : ∀ j ∈ is, j < (p.withBox l ((p.box l).set side i v)).size l := by
      intro j hj
      rw [size_withBox]
      exact h j (List.mem_cons_of_mem i hj)
    rw [List.foldlM_cons, setBound_of_lt (h i List.mem_cons_self) hv]
    show List.foldlM _ (p.withBox l ((p.box l).set side i v)) is = _
    rw [ih hrest, withBox_withBox, box_withBox, List.foldl_cons]

end Program

namespace Box

variable {α : Type}

theorem foldl_set_range (v : α) {r : Row α} {n : Nat} (h : r.length = n) :
    (List.range n).foldl (fun r i => r.set i v) r = r.map fun _ => v := by
  refine List.ext_getElem? fun i => ?_
  rw [getElem?_foldl_set, List.getElem?_map]
  split
  · rfl
  · rename_i hi
    rw [List.mem_range] at hi
    rw [List.getElem?_eq_none (by omega)]
    rfl

theorem foldl_set (box : Box α) (side : Side) (v : α) (is : List Nat) :
    is.foldl (fun box i => box.set side i v) box =
      match side with
      | .lower => { box with lower := is.foldl (fun r i => r.set i v) box.lower }
      | .upper => { box with upper := is.foldl (fun r i => r.set i v) box.upper } := by
  induction is generalizing box with
  | nil => cases side <;> rfl
  | cons i is ih =>
    rw [List.foldl_cons, ih]
    cases side <;> rfl

theorem foldl_set_eq_fill {box : Box α} {side : Side} {n : Nat} (h : (box.get side).length = n)
    (v : α) : (List.range n).foldl (fun box i => box.set side i v) box = box.fill side v := by
  rw [foldl_set]
  cases side with
  | lower => exact congrArg (Box.mk · _) (foldl_set_range v h)
  | upper => exact congrArg (Box.mk _ ·) (foldl_set_range v h)

end Box

namespace Program

variable {α : Type} [Scalar α]

/-- One after the other or all at once: the same bounds, or the same fault. -/
theorem Shaped.setEach_eq_setAll {p : Program α} (h : p.Shaped) (side : Side) (l : Level)
    (value : Datum α) : p.setEach side l value = p.setAll side l value := by
  rw [setEach, setAll]
  cases hv : value.toScalar with
  | error why =>
    cases hsize : p.size l with
    | zero => rfl
    | succ k =>
      -- the first variable of the level already refuses the value
      have hloc : p.locate (.member l) (.int (0 + 1 : Nat)) = .ok (l, 0) :=
        (p.locate_eq_ok_iff _ _ l 0).2 ⟨rfl, rfl, by omega⟩
      rw [List.range_succ_eq_map, List.foldlM_cons, setBound, hloc]
      simp only [bind, Except.bind, hv]
      rfl
  | ok v =>
    rw [foldlM_setBound hv side fun i hi => List.mem_range.1 hi]
    split
    · rename_i hsize
      rw [hsize]
      cases l <;> rfl
    · rw [Box.foldl_set_eq_fill (h.length_get l side)]
      rfl

theorem setAll_freshBox (p : Program α) (v : α) :
    ({ p with yBox := freshBox p.nl } : Program α).setAll .upper .lower (.real v) =
      .ok { p with yBox := ⟨List.replicate p.nl Scalar.zero, List.replicate p.nl v⟩ } := by
  rw [setAll]
  split
  · rename_i hsize
    have hnl : p.nl = 0 := hsize
    rw [hnl]
    rfl
  · have hfill : (freshBox p.nl).fill .upper v =
        ⟨List.replicate p.nl Scalar.zero, List.replicate p.nl v⟩ :=
      congrArg (Box.mk _) List.map_replicate
    exact congrArg (fun box => Except.ok { p with yBox := box }) hfill

section Built

variable {p : Program α} {v : α} (h : p.Shaped) (hx : p.xBox = freshBox p.nu)
  (hy : p.yBox = ⟨List.replicate p.nl Scalar.zero, List.replicate p.nl v⟩)

include h hx hy

/-- A program whose bounds are fresh but for the upper ones of the follower, all of them `v`, is built
from its coefficients and these changes. -/
theorem Shaped.build_setAll :
    (build p.toCoefficients.loose >>= fun fresh => fresh.setAll .upper .lower (.real v)) = .ok p := by
  have hset : ({ p with xBox := freshBox p.nu, yBox := freshBox p.nl } : Program α).setAll .upper
      .lower (.real v) = .ok p := by
    rw [← hx]
    refine (setAll_freshBox p v).trans ?_
    rw [← hy]
  rw [build_loose h]
  exact hset

theorem Shaped.exists_built :
    ∃ fresh, build p.toCoefficients.loose = .ok fresh ∧
      fresh.setEach .upper .lower (.real v) = .ok p := by
  obtain ⟨fresh, hbuild, hset⟩ := exists_of_bind (h.build_setAll hx hy)
  exact ⟨fresh, hbuild, ((shaped_of_build hbuild).1.setEach_eq_setAll ..).trans hset⟩

end Built

end Program
end Bilevel
