import Bilevel.Proofs.Arrays

/-!
# Bilevel.Proofs.Construction

Which arguments make a program, and what is reported about those that do not.

* `Arguments.Consistent a g`: all arguments of the group `g` are arrays and their shapes fit. An
  empty row counts as a matrix without rows.
* `Arguments.Reports a g f`: `f` is the fault of the group `g`. The first of its arguments that is no
  array decides; if all of them are arrays, the shapes are at fault.
* `build_outcome`: a program is built exactly if all groups are consistent and the integer indices
  can be gone through. Otherwise the first inconsistent group is reported, and the indices are
  looked at only if there is none.
* `shaped_of_build`: what is built is well-shaped. `parts_of_build` says which arguments each part of it
  comes from, so that it consists of their numbers (`contains_of_build`).
-/

namespace Bilevel

namespace Datum

variable {α : Type} [Scalar α]

/-- The value is a row of `n` numbers. -/
def IsRow (d : Datum α) (n : Nat) : Prop :=
  ∃ t, d.toTensor = .ok t ∧ t.shape = [n]

/-- The value is a matrix, or an empty row in place of a matrix without rows. -/
def IsMatrix (d : Datum α) (rows columns : Nat) : Prop :=
  ∃ t, d.toTensor = .ok t ∧ (t.shape = [rows, columns] ∨ (t.shape = [0] ∧ rows = 0))

/-- The value can be gone through item by item. -/
def IsIterable : Datum α → Prop
  | .text _ | .list _ | .object _ => True
  | _ => False

/-- The number is one of those that the value consists of. -/
def Contains (d : Datum α) (v : α) : Prop :=
  ∃ e ∈ d.leaves, e.toScalar = .ok v

/-- Why the value is no array, if it is none. -/
def conversionFault? (d : Datum α) : Option ConversionFault :=
  match d.toTensor with
  | .ok _ => none
  | .error why => some why

/-- The length of a row; zero for everything else. -/
def rowLength (d : Datum α) : Nat :=
  match d.toTensor with
  | .ok ⟨[n], _⟩ => n
  | _ => 0

theorem rowLength_of_isRow {d : Datum α} {n : Nat} (h : d.IsRow n) : d.rowLength = n := by
  obtain ⟨⟨shape, entries⟩, ht, hs⟩ := h
  cases hs
  rw [rowLength, ht]

theorem conversionFault?_of_ok {d : Datum α} {t : Tensor α} (h : d.toTensor = .ok t) :
    d.conversionFault? = none := by
  rw [conversionFault?, h]

theorem conversionFault?_of_error {d : Datum α} {why : ConversionFault}
    (h : d.toTensor = .error why) : d.conversionFault? = some why := by
  rw [conversionFault?, h]

end Datum

/-- The place of a group in the order of the checks. -/
def Group.rank : Group → Nat
  | .objectives => 0
  | .lowerConstraints => 1
  | .upperConstraints => 2
  | .quadraticTerm => 3

namespace Arguments

variable {α : Type} [Scalar α]

/-- The rows and columns of a level's constraints fit `nu` and `nl` variables. -/
def RowsFit (nu nl : Nat) (left right rhs : Datum α) : Prop :=
  ∃ m, rhs.IsRow m ∧ left.IsMatrix m nu ∧ right.IsMatrix m nl

/-- All arguments of a group are arrays, and their shapes fit. -/
def Consistent (a : Arguments α) : Group → Prop
  | .objectives => ∃ nu nl, a.cx.IsRow nu ∧ a.cy.IsRow nl ∧ a.d.IsRow nl
  | .lowerConstraints => RowsFit a.cx.rowLength a.cy.rowLength a.A a.B a.b
  | .upperConstraints => RowsFit a.cx.rowLength a.cy.rowLength a.G a.H a.q
  | .quadraticTerm => a.F = .null ∨ a.F.IsMatrix a.cx.rowLength a.cy.rowLength

/-- The arguments of a group in the order in which they are converted. -/
def members (a : Arguments α) : Group → List (Datum α)
  | .objectives => [a.cx, a.cy, a.d]
  | .lowerConstraints => [a.b, a.A, a.B]
  | .upperConstraints => [a.q, a.G, a.H]
  | .quadraticTerm => [a.F]

/-- What is reported about arguments that do not make up a group. -/
def Blames (g : Group) (members : List (Datum α)) (f : Fault α) : Prop :=
  match members.findSome? Datum.conversionFault? with
  | none => ∃ misfit, f = .mismatch g (some misfit)
  | some .malformed => f = .mismatch g none
  | some .notNumeric => f = .conversion .notNumeric
  | some .tooLarge => f = .conversion .tooLarge

/-- The fault of an inconsistent group. -/
def Reports (a : Arguments α) (g : Group) (f : Fault α) : Prop :=
  Blames g (a.members g) f

end Arguments

namespace Program

open Arguments

variable {α : Type}

theorem sequence_of_iterable {d : Datum α} (h : d = .null ∨ d.IsIterable) :
    ∃ items, sequence d = .ok items := by
  rcases h with rfl | h
  · exact ⟨[], rfl⟩
  · cases d with
    | text s => exact ⟨_, rfl⟩
    | list items => exact ⟨_, rfl⟩
    | object fields => exact ⟨_, rfl⟩
    | _ => exact absurd h id

theorem sequence_of_not_iterable {d : Datum α} (h : ¬(d = .null ∨ d.IsIterable)) :
    sequence d = .error .notSequence := by
  rw [not_or] at h
  cases d with
  | null => exact absurd rfl h.1
  | text s => exact absurd trivial h.2
  | list items => exact absurd trivial h.2
  | object fields => exact absurd trivial h.2
  | _ => rfl

variable [Scalar α]

/-! ## One group at a time -/

/-- What an argument that is no array is reported with. -/
def conversionReport (g : Group) : ConversionFault → Fault α
  | .malformed => .mismatch g none
  | why => .conversion why

theorem array_of_ok {g : Group} {d : Datum α} {t : Tensor α} (h : d.toTensor = .ok t) :
    array g d = .ok t := by
  rw [array, h]

theorem array_of_error {g : Group} {d : Datum α} {why : ConversionFault}
    (h : d.toTensor = .error why) : array g d = .error (conversionReport g why) := by
  rw [array, h]
  cases why <;> rfl

/-- Arguments that are all arrays come before the one that is at fault. -/
theorem blames_conversionReport {g : Group} (good : List (Datum α)) {rest : List (Datum α)}
    {d : Datum α} {why : ConversionFault} (hgood : ∀ e ∈ good, e.conversionFault? = none)
    (h : d.toTensor = .error why) :
    Blames g (good ++ d :: rest) (conversionReport g why) := by
  have hfind : (good ++ d :: rest).findSome? Datum.conversionFault? = some why := by
    rw [List.findSome?_append, List.findSome?_eq_none_iff.2 hgood, List.findSome?_cons,
      Datum.conversionFault?_of_error h]
    rfl
  unfold Blames
  rw [hfind]
  cases why <;> rfl

theorem blames_misfit {g : Group} {members : List (Datum α)}
    (h : ∀ e ∈ members, e.conversionFault? = none) (misfit : Misfit) :
    Blames g members (.mismatch g (some misfit) : Fault α) := by
  unfold Blames
  rw [List.findSome?_eq_none_iff.2 h]
  exact ⟨misfit, rfl⟩

theorem toTensor_of_array {g : Group} {d : Datum α} {t : Tensor α} (h : array g d = .ok t) :
    d.toTensor = .ok t := by
  unfold array at h
  split at h
  · cases h
    assumption
  · cases h
  · cases h

theorem objectives_of_rows {a : Arguments α} {nu nl : Nat} (hx : a.cx.IsRow nu)
    (hy : a.cy.IsRow nl) (hd : a.d.IsRow nl) :
    ∃ cx cy d, objectives a = .ok (cx, cy, d) ∧ cx.length = nu ∧ cy.length = nl ∧
      d.length = nl := by
  obtain ⟨cx, hcx, hsx⟩ := hx
  obtain ⟨cy, hcy, hsy⟩ := hy
  obtain ⟨d, hcd, hsd⟩ := hd
  have hfit : cx.shape.length = 1 ∧ cy.shape.length = 1 ∧ d.shape = cy.shape := by
    rw [hsx, hsy, hsd]
    exact ⟨rfl, rfl, rfl⟩
  refine ⟨cx.entries, cy.entries, d.entries, ?_, Datum.length_row hcx hsx, Datum.length_row hcy hsy,
    Datum.length_row hcd hsd⟩
  rw [objectives, array_of_ok hcx, array_of_ok hcy, array_of_ok hcd]
  exact if_pos hfit

theorem objectives_of_inconsistent {a : Arguments α} (h : ¬a.Consistent .objectives) :
    ∃ f, objectives a = .error f ∧ a.Reports .objectives f := by
  unfold Reports members
  cases hcx : a.cx.toTensor with
  | error why =>
    refine ⟨conversionReport .objectives why, ?_, ?_⟩
    · rw [objectives, array_of_error hcx]
      rfl
    · exact blames_conversionReport [] (fun e he => by cases he) hcx
  | ok cx =>
    have gx := Datum.conversionFault?_of_ok hcx
    cases hcy : a.cy.toTensor with
    | error why =>
      refine ⟨conversionReport .objectives why, ?_, ?_⟩
      · rw [objectives, array_of_ok hcx, array_of_error hcy]
        rfl
      · exact blames_conversionReport [a.cx] (by simpa using gx) hcy
    | ok cy =>
      have gy := Datum.conversionFault?_of_ok hcy
      cases hcd : a.d.toTensor with
      | error why =>
        refine ⟨conversionReport .objectives why, ?_, ?_⟩
        · rw [objectives, array_of_ok hcx, array_of_ok hcy, array_of_error hcd]
          rfl
        · exact blames_conversionReport [a.cx, a.cy] (by simp [gx, gy]) hcd
      | ok d =>
        have gd := Datum.conversionFault?_of_ok hcd
        have hmisfit : ¬(cx.shape.length = 1 ∧ cy.shape.length = 1 ∧ d.shape = cy.shape) := by
          rintro ⟨hsx, hsy, hsd⟩
          obtain ⟨nu, hnu⟩ := List.length_eq_one_iff.1 hsx
          obtain ⟨nl, hnl⟩ := List.length_eq_one_iff.1 hsy
          exact h ⟨nu, nl, ⟨cx, hcx, hnu⟩, ⟨cy, hcy, hnl⟩, ⟨d, hcd, hsd.trans hnl⟩⟩
        refine ⟨.mismatch .objectives
          (some (.among [("cx", cx.shape), ("cy", cy.shape), ("d", d.shape)])), ?_, ?_⟩
        · rw [objectives, array_of_ok hcx, array_of_ok hcy, array_of_ok hcd]
          exact if_neg hmisfit
        · exact blames_misfit (by simp [gx, gy, gd]) _

theorem eq_of_rowLength? {shape : Shape} {n : Nat} (h : rowLength? shape = some n) : shape = [n] := by
  unfold rowLength? at h
  split at h
  · cases h
    rfl
  · cases h

theorem constraints_of_rowsFit (g : Group) (left right rhs : String × Datum α) {nu nl : Nat}
    (h : RowsFit nu nl left.2 right.2 rhs.2) :
    ∃ M N r, constraints g nu nl left right rhs = .ok (M, N, r) ∧
      Rows.HasShape M r.length nu ∧ Rows.HasShape N r.length nl := by
  obtain ⟨k, ⟨r, hr, hrs⟩, ⟨m, hm, hms⟩, ⟨n, hn, hns⟩⟩ := h
  have hms' := (m.shape_asMatrix_iff k nu).2 hms
  have hns' := (n.shape_asMatrix_iff k nl).2 hns
  refine ⟨(m.asMatrix nu).rows k nu, (n.asMatrix nl).rows k nl, r.entries, ?_, ?_, ?_⟩
  · rw [constraints, array_of_ok hr, array_of_ok hm, array_of_ok hn]
    simp only [hrs, rowLength?, bind, Except.bind]
    exact if_pos ⟨hms', hns'⟩
  · rw [Datum.length_row hr hrs]
    exact Tensor.hasShape_rows (Datum.length_entries hm) hms'
  · rw [Datum.length_row hr hrs]
    exact Tensor.hasShape_rows (Datum.length_entries hn) hns'

theorem constraints_of_not_rowsFit (g : Group) (left right rhs : String × Datum α) {nu nl : Nat}
    (h : ¬RowsFit nu nl left.2 right.2 rhs.2) :
    ∃ f, constraints g nu nl left right rhs = .error f ∧
      Blames g [rhs.2, left.2, right.2] f := by
  cases hr : rhs.2.toTensor with
  | error why =>
    refine ⟨conversionReport g why, ?_, ?_⟩
    · rw [constraints, array_of_error hr]
      rfl
    · exact blames_conversionReport [] (fun e he => by cases he) hr
  | ok r =>
    have gr := Datum.conversionFault?_of_ok hr
    cases hm : left.2.toTensor with
    | error why =>
      refine ⟨conversionReport g why, ?_, ?_⟩
      · rw [constraints, array_of_ok hr, array_of_error hm]
        rfl
      · exact blames_conversionReport [rhs.2] (by simpa using gr) hm
    | ok m =>
      have gm := Datum.conversionFault?_of_ok hm
      cases hn : right.2.toTensor with
      | error why =>
        refine ⟨conversionReport g why, ?_, ?_⟩
        · rw [constraints, array_of_ok hr, array_of_ok hm, array_of_error hn]
          rfl
        · exact blames_conversionReport [rhs.2, left.2] (by simp [gr, gm]) hn
      | ok n =>
        have gn := Datum.conversionFault?_of_ok hn
        refine ⟨.mismatch g (some (.among [(left.1, (m.asMatrix nu).shape),
          (right.1, (n.asMatrix nl).shape), (rhs.1, r.shape)])), ?_, ?_⟩
        · rw [constraints, array_of_ok hr, array_of_ok hm, array_of_ok hn]
          simp only [bind, Except.bind]
          -- a right-hand side that is no row misfits whatever the matrices are
          cases hrs : rowLength? r.shape with
          | none => rfl
          | some k =>
            refine if_neg fun hfit => h ⟨k, ⟨r, hr, eq_of_rowLength? hrs⟩, ⟨m, hm, ?_⟩, ⟨n, hn, ?_⟩⟩
            · exact (m.shape_asMatrix_iff k nu).1 hfit.1
            · exact (n.shape_asMatrix_iff k nl).1 hfit.2
        · exact blames_misfit (by simp [gr, gm, gn]) _

theorem quadraticTerm_of_ne_null {nu nl : Nat} {f : Datum α} (h : f ≠ .null) :
    quadraticTerm nu nl f = (do
      let m := (← array .quadraticTerm f).asMatrix nl
      if m.shape = [nu, nl] then return m.rows nu nl
      else throw (.mismatch .quadraticTerm (some (.matrix "F" m.shape nu nl)))) := by
  cases f with
  | null => exact absurd rfl h
  | _ => rfl

theorem quadraticTerm_of_fits {nu nl : Nat} {f : Datum α} (h : f = .null ∨ f.IsMatrix nu nl) :
    ∃ F, quadraticTerm nu nl f = .ok F ∧ Rows.HasShape F nu nl := by
  by_cases hf : f = .null
  · rw [hf]
    exact ⟨_, rfl, Rows.hasShape_replicate nu nl Scalar.zero⟩
  · obtain ⟨m, hm, hms⟩ := h.resolve_left hf
    have hms' := (m.shape_asMatrix_iff nu nl).2 hms
    refine ⟨(m.asMatrix nl).rows nu nl, ?_, ?_⟩
    · rw [quadraticTerm_of_ne_null hf, array_of_ok hm]
      exact if_pos hms'
    · exact Tensor.hasShape_rows (Datum.length_entries hm) hms'

theorem quadraticTerm_of_not_fits {nu nl : Nat} {f : Datum α}
    (h : ¬(f = .null ∨ f.IsMatrix nu nl)) :
    ∃ fault, quadraticTerm nu nl f = .error fault ∧ Blames .quadraticTerm [f] fault := by
  rw [not_or] at h
  rw [quadraticTerm_of_ne_null h.1]
  cases hm : f.toTensor with
  | error why =>
    refine ⟨conversionReport .quadraticTerm why, ?_, ?_⟩
    · rw [array_of_error hm]
      rfl
    · exact blames_conversionReport [] (fun e he => by cases he) hm
  | ok m =>
    refine ⟨.mismatch .quadraticTerm (some (.matrix "F" (m.asMatrix nl).shape nu nl)), ?_, ?_⟩
    · rw [array_of_ok hm]
      refine if_neg fun hs => h.2 ⟨m, hm, ?_⟩
      exact (m.shape_asMatrix_iff nu nl).1 hs
    · exact blames_misfit (by simpa using Datum.conversionFault?_of_ok hm) _

/-! ## All groups together -/

theorem build_of_objectives {a : Arguments α} {cx cy d : Row α}
    (h : objectives a = .ok (cx, cy, d)) :
    build a = (do
      let (A, B, b) ←
        constraints .lowerConstraints cx.length cy.length ("A", a.A) ("B", a.B) ("b", a.b)
      let (G, H, q) ←
        constraints .upperConstraints cx.length cy.length ("G", a.G) ("H", a.H) ("q", a.q)
      let F ← quadraticTerm cx.length cy.length a.F
      let Jx ← sequence a.Jx
      return { cx, cy, G, H, q, d, A, B, b, F, Jx
               xBox := freshBox cx.length, yBox := freshBox cy.length }) := by
  rw [build, h]
  rfl

theorem objectives_of_consistent {a : Arguments α} (h : a.Consistent .objectives) :
    ∃ cx cy d, objectives a = .ok (cx, cy, d) ∧ cx.length = a.cx.rowLength ∧
      cy.length = a.cy.rowLength ∧ d.length = a.cy.rowLength := by
  obtain ⟨nu, nl, hx, hy, hd⟩ := h
  rw [Datum.rowLength_of_isRow hx, Datum.rowLength_of_isRow hy]
  exact objectives_of_rows hx hy hd

/-- Consistent groups are built, whatever the integer indices are. -/
theorem build_of_consistent {a : Arguments α} (h : ∀ g, a.Consistent g) :
    ∃ p : List (Datum α) → Program α,
      (∀ items, (p items).Shaped ∧ (p items).Jx = items ∧
        (p items).xBox = freshBox (p items).nu ∧ (p items).yBox = freshBox (p items).nl) ∧
      build a = (do return p (← sequence a.Jx)) := by
  obtain ⟨cx, cy, d, hobj, hx, hy, hd⟩ := objectives_of_consistent (h .objectives)
  have hlow := h .lowerConstraints
  have hupp := h .upperConstraints
  have hqua := h .quadraticTerm
  rw [Consistent, ← hx, ← hy] at hlow
  rw [Consistent, ← hx, ← hy] at hupp
  rw [Consistent, ← hx, ← hy] at hqua
  obtain ⟨A, B, b, hlow, hA, hB⟩ := constraints_of_rowsFit .lowerConstraints ("A", a.A) ("B", a.B)
    ("b", a.b) hlow
  obtain ⟨G, H, q, hupp, hG, hH⟩ := constraints_of_rowsFit .upperConstraints ("G", a.G) ("H", a.H)
    ("q", a.q) hupp
  obtain ⟨F, hqua, hF⟩ := quadraticTerm_of_fits hqua
  refine ⟨fun Jx => { cx, cy, G, H, q, d, A, B, b, F, Jx
                      xBox := freshBox cx.length, yBox := freshBox cy.length }, ?_, ?_⟩
  · intro items
    refine ⟨?_, rfl, rfl, rfl⟩
    exact {
      d_length := hd.trans hy.symm
      xl_length := List.length_replicate
      xu_length := List.length_replicate
      yl_length := List.length_replicate
      yu_length := List.length_replicate
      G_shape := hG
      H_shape := hH
      A_shape := hA
      B_shape := hB
      F_shape := hF }
  · rw [build_of_objectives hobj, hlow, hupp, hqua]
    rfl

theorem build_of_iterable {a : Arguments α} (h : ∀ g, a.Consistent g)
    (hJx : a.Jx = .null ∨ a.Jx.IsIterable) :
    ∃ p, build a = .ok p ∧ p.Shaped ∧ p.xBox = freshBox p.nu ∧ p.yBox = freshBox p.nl := by
  obtain ⟨p, hp, hbuild⟩ := build_of_consistent h
  obtain ⟨items, hitems⟩ := sequence_of_iterable hJx
  refine ⟨p items, ?_, (hp items).1, (hp items).2.2⟩
  rw [hbuild, hitems]
  rfl

theorem build_of_not_iterable {a : Arguments α} (h : ∀ g, a.Consistent g)
    (hJx : ¬(a.Jx = .null ∨ a.Jx.IsIterable)) : build a = .error .notSequence := by
  obtain ⟨p, -, hbuild⟩ := build_of_consistent h
  rw [hbuild, sequence_of_not_iterable hJx]
  rfl

/-- The first group that is not consistent is the one that is reported. -/
theorem build_of_inconsistent {a : Arguments α} {g : Group}
    (hbefore : ∀ g', g'.rank < g.rank → a.Consistent g') (h : ¬a.Consistent g) :
    ∃ f, build a = .error f ∧ a.Reports g f := by
  cases g with
  | objectives =>
    obtain ⟨f, hobj, hf⟩ := objectives_of_inconsistent h
    refine ⟨f, ?_, hf⟩
    rw [build, hobj]
    rfl
  | lowerConstraints =>
    obtain ⟨cx, cy, d, hobj, hx, hy, -⟩ :=
      objectives_of_consistent (hbefore .objectives (by decide))
    rw [Consistent, ← hx, ← hy] at h
    obtain ⟨f, hlow, hf⟩ := constraints_of_not_rowsFit .lowerConstraints ("A", a.A) ("B", a.B)
      ("b", a.b) h
    refine ⟨f, ?_, hf⟩
    rw [build_of_objectives hobj, hlow]
    rfl
  | upperConstraints =>
    obtain ⟨cx, cy, d, hobj, hx, hy, -⟩ :=
      objectives_of_consistent (hbefore .objectives (by decide))
    have hlow := hbefore .lowerConstraints (by decide)
    rw [Consistent, ← hx, ← hy] at hlow
    rw [Consistent, ← hx, ← hy] at h
    obtain ⟨A, B, b, hlow, -⟩ := constraints_of_rowsFit .lowerConstraints ("A", a.A) ("B", a.B)
      ("b", a.b) hlow
    obtain ⟨f, hupp, hf⟩ := constraints_of_not_rowsFit .upperConstraints ("G", a.G) ("H", a.H)
      ("q", a.q) h
    refine ⟨f, ?_, hf⟩
    rw [build_of_objectives hobj, hlow, hupp]
    rfl
  | quadraticTerm =>
    obtain ⟨cx, cy, d, hobj, hx, hy, -⟩ :=
      objectives_of_consistent (hbefore .objectives (by decide))
    have hlow := hbefore .lowerConstraints (by decide)
    have hupp := hbefore .upperConstraints (by decide)
    rw [Consistent, ← hx, ← hy] at hlow
    rw [Consistent, ← hx, ← hy] at hupp
    rw [Consistent, ← hx, ← hy] at h
    obtain ⟨A, B, b, hlow, -⟩ := constraints_of_rowsFit .lowerConstraints ("A", a.A) ("B", a.B)
      ("b", a.b) hlow
    obtain ⟨G, H, q, hupp, -⟩ := constraints_of_rowsFit .upperConstraints ("G", a.G) ("H", a.H)
      ("q", a.q) hupp
    obtain ⟨f, hqua, hf⟩ := quadraticTerm_of_not_fits h
    refine ⟨f, ?_, hf⟩
    rw [build_of_objectives hobj, hlow, hupp, hqua]
    rfl

/-- There is a first inconsistent group as soon as there is one. -/
theorem exists_first_inconsistent {a : Arguments α} (h : ¬∀ g, a.Consistent g) :
    ∃ g, (∀ g', g'.rank < g.rank → a.Consistent g') ∧ ¬a.Consistent g := by
  obtain ⟨g, hg⟩ := not_forall.1 h
  induction hk : g.rank using Nat.strong_induction_on generalizing g with
  | _ k ih =>
    subst hk
    by_cases hbefore : ∀ g', g'.rank < g.rank → a.Consistent g'
    · exact ⟨g, hbefore, hg⟩
    · push Not at hbefore
      obtain ⟨g', hlt, hg'⟩ := hbefore
      exact ih g'.rank hlt g' hg' rfl

/-- What is built is well-shaped, and its bounds are fresh. -/
theorem shaped_of_build {a : Arguments α} {p : Program α} (h : build a = .ok p) :
    p.Shaped ∧ p.xBox = freshBox p.nu ∧ p.yBox = freshBox p.nl := by
  by_cases hc : ∀ g, a.Consistent g
  · by_cases hJx : a.Jx = .null ∨ a.Jx.IsIterable
    · obtain ⟨p', hp', hshape⟩ := build_of_iterable hc hJx
      rw [h] at hp'
      cases hp'
      exact hshape
    · rw [build_of_not_iterable hc hJx] at h
      cases h
  · obtain ⟨g, hbefore, hg⟩ := exists_first_inconsistent hc
    obtain ⟨f, hf, -⟩ := build_of_inconsistent hbefore hg
    rw [h] at hf
    cases hf

/-! ## Coefficients -/

theorem contains_of_rows {d : Datum α} {t : Tensor α} (h : d.toTensor = .ok t) (columns count width : Nat) :
    ∀ r ∈ (t.asMatrix columns).rows count width, ∀ v ∈ r, d.Contains v := fun r hr v hv =>
  Datum.exists_leaf_of_mem h v (Tensor.mem_of_mem_asMatrix (Tensor.mem_of_mem_slices _ _ _ r hr v hv))

/-- What the constraints of a level are made of: arrays whose shapes fit. -/
theorem constraints_cases {g : Group} {nu nl : Nat} {left right rhs : String × Datum α}
    {M N : Rows α} {r : Row α} (h : constraints g nu nl left right rhs = .ok (M, N, r)) :
    ∃ m n t, left.2.toTensor = .ok m ∧ right.2.toTensor = .ok n ∧ rhs.2.toTensor = .ok t ∧
      (m.asMatrix nu).shape = [r.length, nu] ∧ (n.asMatrix nl).shape = [r.length, nl] ∧
      t.shape = [r.length] ∧ M = (m.asMatrix nu).rows r.length nu ∧
      N = (n.asMatrix nl).rows r.length nl ∧ r = t.entries := by
  obtain ⟨t, ht, h⟩ := exists_of_bind h
  obtain ⟨m, hm, h⟩ := exists_of_bind h
  obtain ⟨n, hn, h⟩ := exists_of_bind h
  simp only at h
  split at h
  · rename_i k hk
    split at h
    · rename_i hfit
      cases h
      have hshape := eq_of_rowLength? hk
      obtain rfl : t.entries.length = k := Datum.length_row (toTensor_of_array ht) hshape
      exact ⟨m, n, t, toTensor_of_array hm, toTensor_of_array hn, toTensor_of_array ht, hfit.1,
        hfit.2, hshape, rfl, rfl, rfl⟩
    · cases h
  · cases h

section Constraints

variable {g : Group} {nu nl : Nat} {left right rhs : String × Datum α} {M N : Rows α} {r : Row α}
  (h : constraints g nu nl left right rhs = .ok (M, N, r))

include h

theorem contains_of_constraints :
    (∀ row ∈ M, ∀ v ∈ row, left.2.Contains v) ∧ (∀ row ∈ N, ∀ v ∈ row, right.2.Contains v) ∧
      ∀ v ∈ r, rhs.2.Contains v := by
  obtain ⟨m, n, t, hm, hn, ht, -, -, -, rfl, rfl, hr⟩ := constraints_cases h
  exact ⟨contains_of_rows hm _ _ _, contains_of_rows hn _ _ _,
    fun v hv => Datum.exists_leaf_of_mem ht v (hr ▸ hv)⟩

/-- What the right-hand side is has no part in the matrices. -/
theorem matrices_of_constraints {rhs' : String × Datum α} {M' N' : Rows α} {r' : Row α}
    (h' : constraints g nu nl left right rhs' = .ok (M', N', r')) : M' = M ∧ N' = N := by
  obtain ⟨m, n, t, hm, hn, -, hms, -, -, rfl, rfl, -⟩ := constraints_cases h
  obtain ⟨m', n', t', hm', hn', -, hms', -, -, rfl, rfl, -⟩ := constraints_cases h'
  cases hm.symm.trans hm'
  cases hn.symm.trans hn'
  have hrows : r'.length = r.length := (List.cons.inj (hms'.symm.trans hms)).1
  rw [hrows]
  exact ⟨rfl, rfl⟩

/-- What the first matrix is has no part in the second one and in the right-hand side. -/
theorem rest_of_constraints {nu' : Nat} {left' : String × Datum α} {M' N' : Rows α} {r' : Row α}
    (h' : constraints g nu' nl left' right rhs = .ok (M', N', r')) : N' = N ∧ r' = r := by
  obtain ⟨m, n, t, -, hn, ht, -, -, -, -, rfl, hr⟩ := constraints_cases h
  obtain ⟨m', n', t', -, hn', ht', -, -, -, -, rfl, hr'⟩ := constraints_cases h'
  cases hn.symm.trans hn'
  cases ht.symm.trans ht'
  obtain rfl : r' = r := hr'.trans hr.symm
  exact ⟨rfl, rfl⟩

end Constraints

theorem contains_of_objectives {a : Arguments α} {cx cy d : Row α}
    (h : objectives a = .ok (cx, cy, d)) :
    (∀ v ∈ cx, a.cx.Contains v) ∧ (∀ v ∈ cy, a.cy.Contains v) ∧ ∀ v ∈ d, a.d.Contains v := by
  obtain ⟨x, hx, h⟩ := exists_of_bind h
  obtain ⟨y, hy, h⟩ := exists_of_bind h
  obtain ⟨z, hz, h⟩ := exists_of_bind h
  split at h
  · cases h
    exact ⟨Datum.exists_leaf_of_mem (toTensor_of_array hx),
      Datum.exists_leaf_of_mem (toTensor_of_array hy),
      Datum.exists_leaf_of_mem (toTensor_of_array hz)⟩
  · cases h

theorem contains_of_quadraticTerm {nu nl : Nat} {f : Datum α} {F : Rows α} (hf : f ≠ .null)
    (h : quadraticTerm nu nl f = .ok F) : ∀ row ∈ F, ∀ v ∈ row, f.Contains v := by
  rw [quadraticTerm_of_ne_null hf] at h
  obtain ⟨m, hm, h⟩ := exists_of_bind h
  simp only at h
  split at h
  · cases h
    exact contains_of_rows (toTensor_of_array hm) _ _ _
  · cases h

/-- Every part of a program comes from the group of its arguments, and the bounds are fresh. -/
theorem parts_of_build {a : Arguments α} {p : Program α} (h : build a = .ok p) :
    objectives a = .ok (p.cx, p.cy, p.d) ∧
    constraints .lowerConstraints p.nu p.nl ("A", a.A) ("B", a.B) ("b", a.b) = .ok (p.A, p.B, p.b) ∧
    constraints .upperConstraints p.nu p.nl ("G", a.G) ("H", a.H) ("q", a.q) = .ok (p.G, p.H, p.q) ∧
    quadraticTerm p.nu p.nl a.F = .ok p.F ∧ sequence a.Jx = .ok p.Jx := by
  obtain ⟨⟨cx, cy, d⟩, hobj, h⟩ := exists_of_bind h
  obtain ⟨⟨A, B, b⟩, hlow, h⟩ := exists_of_bind h
  obtain ⟨⟨G, H, q⟩, hupp, h⟩ := exists_of_bind h
  obtain ⟨F, hqua, h⟩ := exists_of_bind h
  obtain ⟨Jx, hJx, h⟩ := exists_of_bind h
  cases h
  exact ⟨hobj, hlow, hupp, hqua, hJx⟩

/-- The numbers of the constraints are numbers of the arguments, and the indices are as they were
handed in. -/
theorem contains_of_build {a : Arguments α} {p : Program α} (h : build a = .ok p) :
    ((∀ row ∈ p.G, ∀ v ∈ row, a.G.Contains v) ∧ (∀ row ∈ p.H, ∀ v ∈ row, a.H.Contains v) ∧
      ∀ v ∈ p.q, a.q.Contains v) ∧
    ((∀ row ∈ p.A, ∀ v ∈ row, a.A.Contains v) ∧ (∀ row ∈ p.B, ∀ v ∈ row, a.B.Contains v) ∧
      ∀ v ∈ p.b, a.b.Contains v) ∧
    sequence a.Jx = .ok p.Jx := by
  obtain ⟨-, hlow, hupp, -, hJx⟩ := parts_of_build h
  exact ⟨contains_of_constraints hupp, contains_of_constraints hlow, hJx⟩

/-- The right-hand side of the upper rows, the quadratic term and the integer indices have no part in
the other coefficients, and each comes from its own argument. -/
theorem toCoefficients_of_build {a a' : Arguments α} {p p' : Program α} (h : build a = .ok p)
    (h' : build a' = .ok p') (ha : a' = { a with q := a'.q, F := a'.F, Jx := a'.Jx }) :
    p'.toCoefficients = { p.toCoefficients with q := p'.q, F := p'.F, Jx := p'.Jx } ∧
      (a'.q = a.q → p'.q = p.q) ∧ (a'.F = a.F → p'.F = p.F) := by
  obtain ⟨hobj, hlow, hupp, hqua, -⟩ := parts_of_build h
  obtain ⟨hobj', hlow', hupp', hqua', -⟩ := parts_of_build h'
  rw [ha] at hobj' hlow' hupp'
  obtain ⟨hcx, hcy, hd⟩ : p'.cx = p.cx ∧ p'.cy = p.cy ∧ p'.d = p.d := by
    simpa only [Prod.mk.injEq] using Except.ok.inj (hobj'.symm.trans hobj)
  have hnu : p'.nu = p.nu := congrArg List.length hcx
  have hnl : p'.nl = p.nl := congrArg List.length hcy
  rw [hnu, hnl] at hlow' hupp' hqua'
  obtain ⟨hA, hB, hb⟩ : p'.A = p.A ∧ p'.B = p.B ∧ p'.b = p.b := by
    simpa only [Prod.mk.injEq] using Except.ok.inj (hlow'.symm.trans hlow)
  obtain ⟨hG, hH⟩ := matrices_of_constraints hupp hupp'
  refine ⟨?_, fun hq => ?_, fun hF => ?_⟩
  · show _ = Coefficients.mk p.cx p.cy p.G p.H p'.q p.d p.A p.B p.b p'.F p'.Jx
    rw [← hcx, ← hcy, ← hd, ← hA, ← hB, ← hb, ← hG, ← hH]
  · have hupp' : constraints .upperConstraints p.nu p.nl ("G", a.G) ("H", a.H) ("q", a'.q) =
        .ok (p'.G, p'.H, p'.q) := hupp'
    rw [hq] at hupp'
    exact (rest_of_constraints hupp hupp').2
  · rw [hF] at hqua'
    exact Except.ok.inj (hqua'.symm.trans hqua)

theorem length_of_isRow {g : Group} {d : Datum α} {t : Tensor α} {n : Nat} (h : array g d = .ok t)
    (hd : d.IsRow n) : t.entries.length = n := by
  obtain ⟨t', ht, hs⟩ := hd
  rw [toTensor_of_array h] at ht
  cases ht
  exact Datum.length_row (toTensor_of_array h) hs

/-- The objectives say how many variables there are. -/
theorem sizes_of_build {a : Arguments α} {p : Program α} (h : build a = .ok p) {nu nl : Nat}
    (hx : a.cx.IsRow nu) (hy : a.cy.IsRow nl) : p.nu = nu ∧ p.nl = nl := by
  obtain ⟨hobj, -⟩ := parts_of_build h
  obtain ⟨u, hu, hobj⟩ := exists_of_bind hobj
  obtain ⟨v, hv, hobj⟩ := exists_of_bind hobj
  obtain ⟨w, -, hobj⟩ := exists_of_bind hobj
  split at hobj
  · obtain ⟨hcx, hcy, -⟩ : u.entries = p.cx ∧ v.entries = p.cy ∧ w.entries = p.d := by
      simpa only [Prod.mk.injEq] using Except.ok.inj hobj
    rw [Program.nu, Program.nl, ← hcx, ← hcy]
    exact ⟨length_of_isRow hu hx, length_of_isRow hv hy⟩
  · cases hobj

/-- The right-hand sides say how many rows there are. -/
theorem rowCounts_of_build {a : Arguments α} {p : Program α} (h : build a = .ok p) {mu ml : Nat}
    (hq : a.q.IsRow mu) (hb : a.b.IsRow ml) : p.mu = mu ∧ p.ml = ml := by
  obtain ⟨-, hlow, hupp, -⟩ := parts_of_build h
  have hlength {k : Nat} {d : Datum α} {t : Tensor α} {r : Row α} (hd : d.IsRow k)
      (ht : d.toTensor = .ok t) (hshape : t.shape = [r.length]) : r.length = k := by
    obtain ⟨t', ht', hs⟩ := hd
    cases ht.symm.trans ht'
    exact (List.cons.inj (hshape.symm.trans hs)).1
  obtain ⟨-, -, t, -, -, ht, -, -, hts, -⟩ := constraints_cases hupp
  obtain ⟨-, -, u, -, -, hu, -, -, hus, -⟩ := constraints_cases hlow
  exact ⟨hlength hq ht hts, hlength hb hu hus⟩

/-- **Construction.** A program is built exactly if all groups of arguments are consistent and the
integer indices are nothing or can be gone through. Otherwise the first inconsistent group is
reported; if there is none, the indices are. -/
theorem build_outcome (a : Arguments α) :
    ((∃ p, build a = .ok p) ↔ (∀ g, a.Consistent g) ∧ (a.Jx = .null ∨ a.Jx.IsIterable)) ∧
    ((∀ g, a.Consistent g) → ¬(a.Jx = .null ∨ a.Jx.IsIterable) →
      build a = .error .notSequence) ∧
    (∀ g, (∀ g', g'.rank < g.rank → a.Consistent g') → ¬a.Consistent g →
      ∃ f, build a = .error f ∧ a.Reports g f) := by
  refine ⟨⟨?_, ?_⟩, fun h => build_of_not_iterable h, fun g => build_of_inconsistent⟩
  · rintro ⟨p, hp⟩
    by_cases h : ∀ g, a.Consistent g
    · refine ⟨h, ?_⟩
      by_contra hJx
      rw [build_of_not_iterable h hJx] at hp
      cases hp
    · obtain ⟨g, hbefore, hg⟩ := exists_first_inconsistent h
      obtain ⟨f, hf, -⟩ := build_of_inconsistent hbefore hg
      rw [hf] at hp
      cases hp
  · rintro ⟨h, hJx⟩
    obtain ⟨p, hp, -⟩ := build_of_iterable h hJx
    exact ⟨p, hp⟩

end Program
end Bilevel
