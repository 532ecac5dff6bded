import Bilevel.Proofs.Double.Text
import Bilevel.Proofs.States
import Bilevel.Proofs.Text.Lines

/-!
# Bilevel.Proofs.Text.Parts

The text of a program determines the program.

* `Part.ofChars`: the first characters of a line tell which part of the text it belongs to.
* `part_eq_of_text_eq`: programs with one text agree in all its parts.
* `text_determines`: so they have the same sizes, the same coefficients up to the signs of zeros, the
  same right hand sides, bounds and integer variables.
-/

namespace Bilevel
namespace Program

/-- The parts of a text. -/
inductive Part where
  | objective
  | upperRows
  | upperBounds
  | response
  | lowerRows
  | lowerBounds
  deriving DecidableEq

/-- All parts in their order. -/
def Part.all : List Part :=
  [.objective, .upperRows, .upperBounds, .response, .lowerRows, .lowerBounds]

theorem Part.mem_all (k : Part) : k ∈ Part.all := by
  cases k <;> decide

/-- The part a line belongs to. -/
def Part.ofChars : List Char → Part
  | '\t' :: 'x' :: _ => .upperBounds
  | '\t' :: 'y' :: _ => .response
  | '\t' :: '\t' :: 'y' :: _ => .lowerBounds
  | '\t' :: '\t' :: _ => .lowerRows
  | '\t' :: _ => .upperRows
  | _ => .objective

variable {α : Type} [Scalar α]

/-- What is written after the bounds of an upper variable. -/
def integerMark (p : Program α) (j : Nat) : String :=
  if p.isInteger j then ", integer" else ""

/-- The lines of a part. -/
def part (p : Program α) : Part → List String
  | .objective => ["min " ++ (form "x" p.cx ++ " + " ++ form "y" p.cy)]
  | .upperRows => (rowTexts p.G p.H p.q).map ("\t" ++ ·)
  | .upperBounds => (markedTexts "x" p.xBox p.integerMark).map ("\t" ++ ·)
  | .response => ["\ty ∈ argmin " ++ " + ".intercalate (form "y" p.d :: quadraticTerms p.F)]
  | .lowerRows => (rowTexts p.A p.B p.b).map ("\t\t" ++ ·)
  | .lowerBounds => (markedTexts "y" p.yBox fun _ => "").map ("\t\t" ++ ·)

theorem marked_boundTexts (p : Program α) :
    ((boundTexts "x" p.xBox).zipIdx.map fun (s, j) => if p.isInteger j then s ++ ", integer" else s) =
      markedTexts "x" p.xBox p.integerMark := by
  rw [boundTexts, markedTexts]
  refine List.ext_getElem? fun j => ?_
  simp only [List.getElem?_map, List.getElem?_zipIdx, Option.map_map]
  congr 1
  funext b
  simp only [Function.comp_apply, Nat.zero_add, integerMark]
  split <;> simp

theorem lines_eq_parts (p : Program α) : p.lines = Part.all.flatMap p.part := by
  have hbounds : boundTexts "y" p.yBox = markedTexts "y" p.yBox fun _ => "" := by
    simp [boundTexts, markedTexts]
  rw [lines, marked_boundTexts, hbounds]
  simp [Part.all, part, String.append_assoc]

theorem isInteger_of_mark {p p' : Program α} {j : Nat} (h : p.integerMark j = p'.integerMark j) :
    p.isInteger j = p'.isInteger j := by
  unfold integerMark at h
  split at h <;> split at h <;> simp_all

/-- There is a line for each row and for each variable. -/
theorem Shaped.length_part {p : Program α} (hp : p.Shaped) : (p.part .upperRows).length = p.mu ∧
    (p.part .upperBounds).length = p.nu ∧ (p.part .lowerRows).length = p.ml ∧
    (p.part .lowerBounds).length = p.nl := by
  refine ⟨?_, ?_, ?_, ?_⟩
  · simp [part, rowTexts, hp.G_shape.length_eq, hp.H_shape.length_eq, mu]
  · simp [part, markedTexts, hp.xl_length, hp.xu_length]
  · simp [part, rowTexts, hp.A_shape.length_eq, hp.B_shape.length_eq, ml]
  · simp [part, markedTexts, hp.yl_length, hp.yu_length]

variable [Legible α]

/-! ## Lines of a part -/

theorem exists_head_of_mem_formTerms {name : String} {cs : Row α} {t : String}
    (ht : t ∈ formTerms name cs) : ∃ c rest, t.toList = c :: rest ∧ (isNumeric c = true ∨ c = '*') := by
  unfold formTerms at ht
  split at ht
  · rw [List.mem_singleton.1 ht]
    exact ⟨'0', [], rfl, .inl rfl⟩
  · obtain ⟨j, c, -, -, rfl⟩ := mem_terms.1 ht
    rw [toList_term]
    cases htext : (Scalar.text c).toList with
    | nil => exact ⟨_, _, rfl, .inr rfl⟩
    | cons d rest =>
      exact ⟨d, _, rfl, .inl (Legible.isNumeric_of_mem (a := c) (htext ▸ List.mem_cons_self))⟩

theorem exists_head_rowText (m n : Row α) (c : α) : ∃ d rest, (rowText m n c).toList = d :: rest ∧
    (isNumeric d = true ∨ d = '*') := by
  obtain ⟨t, ts, hts⟩ := List.exists_cons_of_ne_nil (formTerms_ne_nil "x" m)
  obtain ⟨d, rest, hd, hhead⟩ := exists_head_of_mem_formTerms (hts ▸ List.mem_cons_self)
  obtain ⟨us, hus⟩ : ∃ us, rowTerms m n = t :: us := ⟨_, by rw [rowTerms, hts]; rfl⟩
  rw [toList_rowText, hus, sumChars, List.map_cons, hd]
  cases us with
  | nil => exact ⟨d, _, rfl, hhead⟩
  | cons u us => exact ⟨d, _, rfl, hhead⟩

theorem newline_notMem_sum {ts : List String} (hts : AreTerms ts) : '\n' ∉ sumChars ts := fun h =>
  (hts.of_mem_sumChars h).elim (nomatch ·) (nomatch ·)

theorem newline_notMem_rowText (m n : Row α) (c : α) : '\n' ∉ (rowText m n c).toList := by
  rw [toList_rowText]
  simp [newline_notMem_sum (areTerms_rowTerms m n), notMem_text (c := c) (d := '\n') rfl]

theorem newline_notMem_boundText {name : String} (hname : name = "x" ∨ name = "y") (j : Nat)
    (low high : α) : '\n' ∉ (boundText name j low high).toList := by
  have hvariable : '\n' ∉ variableChars (name, j) := fun h =>
    ne_of_isTermChar (isTermChar_of_mem_variableChars hname h).1 rfl rfl
  rw [toList_boundText]
  simp [hvariable, notMem_text (c := low) (d := '\n') rfl, notMem_text (c := high) (d := '\n') rfl]

theorem ofChars_tab {d : Char} (h : isNumeric d = true ∨ d = '*') (rest : List Char) :
    Part.ofChars ('\t' :: d :: rest) = .upperRows ∧
    Part.ofChars ('\t' :: '\t' :: d :: rest) = .lowerRows := by
  have hne : ∀ e, isNumeric e = false → e ≠ '*' → d ≠ e := by
    rintro e he hstar rfl
    rcases h with h | h
    · rw [he] at h
      cases h
    · exact hstar h
  have hx := hne 'x' rfl (by decide)
  have hy := hne 'y' rfl (by decide)
  have ht := hne '\t' rfl (by decide)
  constructor <;> simp [Part.ofChars, hx, hy, ht]

/-- A line tells its part, and it ends where it is ended. -/
theorem ofChars_of_mem_part (p : Program α) (k : Part) {s : String} (hs : s ∈ p.part k) :
    Part.ofChars s.toList = k ∧ '\n' ∉ s.toList := by
  cases k with
  | objective =>
    rw [List.mem_singleton.1 hs, String.toList_append, toList_forms]
    refine ⟨rfl, ?_⟩
    simp [newline_notMem_sum (areTerms_rowTerms p.cx p.cy)]
  | upperRows =>
    obtain ⟨t, ht, rfl⟩ := List.mem_map.1 hs
    obtain ⟨⟨m, n, c⟩, -, rfl⟩ := List.mem_map.1 ht
    obtain ⟨d, rest, hd, hhead⟩ := exists_head_rowText m n c
    refine ⟨?_, ?_⟩
    · rw [String.toList_append, hd]
      exact (ofChars_tab hhead rest).1
    · simp [newline_notMem_rowText]
  | upperBounds =>
    obtain ⟨t, ht, rfl⟩ := List.mem_map.1 hs
    obtain ⟨⟨⟨low, high⟩, j⟩, -, rfl⟩ := List.mem_map.1 ht
    refine ⟨?_, ?_⟩
    · simp [toList_boundText, variableChars, Part.ofChars]
    · have hmark : '\n' ∉ (p.integerMark j).toList := by
        rw [integerMark]
        split <;> simp
      simp [newline_notMem_boundText (.inl rfl), hmark]
  | response =>
    rw [List.mem_singleton.1 hs, String.toList_append, toList_response]
    refine ⟨rfl, ?_⟩
    simp [newline_notMem_sum (areTerms_responseTerms p.d p.F)]
  | lowerRows =>
    obtain ⟨t, ht, rfl⟩ := List.mem_map.1 hs
    obtain ⟨⟨m, n, c⟩, -, rfl⟩ := List.mem_map.1 ht
    obtain ⟨d, rest, hd, hhead⟩ := exists_head_rowText m n c
    refine ⟨?_, ?_⟩
    · rw [String.toList_append, hd]
      exact (ofChars_tab hhead rest).2
    · simp [newline_notMem_rowText]
  | lowerBounds =>
    obtain ⟨t, ht, rfl⟩ := List.mem_map.1 hs
    obtain ⟨⟨⟨low, high⟩, j⟩, -, rfl⟩ := List.mem_map.1 ht
    refine ⟨?_, ?_⟩
    · simp [toList_boundText, variableChars, Part.ofChars]
    · simp [newline_notMem_boundText (.inr rfl)]

/-! ## Parts of a text -/

theorem lines_eq_of_text_eq {p p' : Program α} (h : p.text = p'.text) : p.lines = p'.lines := by
  have hends : ∀ p : Program α, p.text.toList = (p.lines.map String.toList).flatMap (· ++ ['\n']) := by
    intro p
    rw [text, String.toList_join, List.flatMap_map, List.flatMap_map]
    simp
  have hnewline : ∀ (p : Program α), ∀ cs ∈ p.lines.map String.toList, '\n' ∉ cs := by
    intro p cs hcs
    obtain ⟨s, hs, rfl⟩ := List.mem_map.1 hcs
    rw [lines_eq_parts, List.mem_flatMap] at hs
    obtain ⟨k, -, hs⟩ := hs
    exact (p.ofChars_of_mem_part k hs).2
  have hchars := congrArg String.toList h
  rw [hends, hends] at hchars
  exact List.map_injective_iff.2 (fun _ _ => String.toList_injective)
    (Splitting.closed_injective (hnewline p) (hnewline p') hchars)

theorem part_eq_of_text_eq {p p' : Program α} (h : p.text = p'.text) (k : Part) :
    p.part k = p'.part k := by
  have hfilter : ∀ p : Program α,
      p.lines.filter (fun s => Part.ofChars s.toList = k) = p.part k := fun p => by
    rw [lines_eq_parts]
    exact Splitting.filter_kind (fun k s hs => (p.ofChars_of_mem_part k hs).1) (by decide) k.mem_all
  rw [← hfilter p, ← hfilter p', lines_eq_of_text_eq h]

theorem prefixed_injective {before s s' : String} (h : before ++ s = before ++ s') : s = s' := by
  have hchars := congrArg String.toList h
  rw [String.toList_append, String.toList_append] at hchars
  exact String.toList_injective (List.append_cancel_left hchars)

theorem map_prefixed_injective {before : String} {ts ts' : List String}
    (h : ts.map (before ++ ·) = ts'.map (before ++ ·)) : ts = ts' :=
  List.map_injective_iff.2 (fun _ _ => prefixed_injective) h

/-! ## What the parts determine -/

variable {p p' : Program α}

theorem sizes_of_text_eq (hp : p.Shaped) (hp' : p'.Shaped) (h : p.text = p'.text) :
    p.nu = p'.nu ∧ p.nl = p'.nl ∧ p.mu = p'.mu ∧ p.ml = p'.ml := by
  obtain ⟨hmu, hnu, hml, hnl⟩ := hp.length_part
  obtain ⟨hmu', hnu', hml', hnl'⟩ := hp'.length_part
  simp only [part_eq_of_text_eq h] at hmu hnu hml hnl
  exact ⟨hnu.symm.trans hnu', hnl.symm.trans hnl', hmu.symm.trans hmu', hml.symm.trans hml'⟩

theorem upperObjective_of_text_eq (hp : p.Shaped) (hp' : p'.Shaped) (h : p.text = p'.text) :
    SameRow p.cx p'.cx ∧ SameRow p.cy p'.cy := by
  obtain ⟨hnu, hnl, -⟩ := sizes_of_text_eq hp hp' h
  have hforms := congrArg String.toList
    (prefixed_injective (List.singleton_injective (part_eq_of_text_eq h .objective)))
  rw [toList_forms, toList_forms] at hforms
  exact sameRow_of_rowTerms hnu hnl ((areTerms_rowTerms _ _).sum_injective (areTerms_rowTerms _ _)
    (rowTerms_ne_nil _ _) (rowTerms_ne_nil _ _) hforms)

theorem lowerObjective_of_text_eq (hp : p.Shaped) (hp' : p'.Shaped) (h : p.text = p'.text) :
    SameRow p.d p'.d ∧ SameRows p.F p'.F := by
  obtain ⟨hnu, hnl, -⟩ := sizes_of_text_eq hp hp' h
  have hforms := congrArg String.toList
    (prefixed_injective (List.singleton_injective (part_eq_of_text_eq h .response)))
  rw [toList_response, toList_response] at hforms
  refine same_of_responseTerms (hp.d_length.trans (hnl.trans hp'.d_length.symm)) hp.F_shape
    (hnu ▸ hnl ▸ hp'.F_shape) ?_
  exact (areTerms_responseTerms _ _).sum_injective (areTerms_responseTerms _ _)
    (responseTerms_ne_nil _ _) (responseTerms_ne_nil _ _) hforms

theorem upperRows_of_text_eq (hp : p.Shaped) (hp' : p'.Shaped) (h : p.text = p'.text) :
    SameRows p.G p'.G ∧ SameRows p.H p'.H ∧ p.q = p'.q := by
  obtain ⟨hnu, hnl, -⟩ := sizes_of_text_eq hp hp' h
  exact same_of_rowTexts hp.G_shape hp.H_shape (hnu ▸ hp'.G_shape) (hnl ▸ hp'.H_shape)
    (map_prefixed_injective (part_eq_of_text_eq h .upperRows))

theorem lowerRows_of_text_eq (hp : p.Shaped) (hp' : p'.Shaped) (h : p.text = p'.text) :
    SameRows p.A p'.A ∧ SameRows p.B p'.B ∧ p.b = p'.b := by
  obtain ⟨hnu, hnl, -⟩ := sizes_of_text_eq hp hp' h
  exact same_of_rowTexts hp.A_shape hp.B_shape (hnu ▸ hp'.A_shape) (hnl ▸ hp'.B_shape)
    (map_prefixed_injective (part_eq_of_text_eq h .lowerRows))

theorem upperBounds_of_text_eq (hp : p.Shaped) (hp' : p'.Shaped) (h : p.text = p'.text) :
    p.xBox = p'.xBox ∧ ∀ j < p.nu, p.isInteger j = p'.isInteger j := by
  obtain ⟨hbox, hmark⟩ := eq_of_markedTexts (.inl rfl) (hp.xl_length.trans hp.xu_length.symm)
    (hp'.xl_length.trans hp'.xu_length.symm)
    (map_prefixed_injective (part_eq_of_text_eq h .upperBounds))
  exact ⟨hbox, fun j hj => isInteger_of_mark (hmark j (hp.xl_length ▸ hj))⟩

theorem lowerBounds_of_text_eq (hp : p.Shaped) (hp' : p'.Shaped) (h : p.text = p'.text) :
    p.yBox = p'.yBox :=
  (eq_of_markedTexts (.inr rfl) (hp.yl_length.trans hp.yu_length.symm)
    (hp'.yl_length.trans hp'.yu_length.symm)
    (map_prefixed_injective (part_eq_of_text_eq h .lowerBounds))).1

/-! ## Programs of doubles -/

instance : Legible Float where
  text_injective := Double.text_injective
  isNumeric_of_mem := fun {x} => (Double.exists_ofText?_text x).1 _

/-- Doubles count as the same number if they are one, or two zeros. -/
theorem sameNumber_iff (x y : Float) : SameNumber x y ↔ x = y ∨
    (x = Float.ofBits 0 ∨ x = Float.ofBits 0x8000000000000000) ∧
      (y = Float.ofBits 0 ∨ y = Float.ofBits 0x8000000000000000) := by
  rw [SameNumber, Double.nonzero_eq_false_iff, Double.nonzero_eq_false_iff]

/-- **The text determines the program.** Reachable programs with one text have the same sizes. Their
coefficients agree up to the signs of zeros. Their right hand sides and bounds are the same, where
there is only one undefined number, and they mark the same variables as integers. -/
theorem text_determines {p p' : Program Float} (hp : p.Reachable) (hp' : p'.Reachable)
    (h : p.text = p'.text) :
    (p.nu = p'.nu ∧ p.nl = p'.nl ∧ p.mu = p'.mu ∧ p.ml = p'.ml) ∧
    (SameRow p.cx p'.cx ∧ SameRow p.cy p'.cy ∧ SameRow p.d p'.d ∧ SameRows p.F p'.F) ∧
    (SameRows p.G p'.G ∧ SameRows p.H p'.H ∧ p.q = p'.q) ∧
    (SameRows p.A p'.A ∧ SameRows p.B p'.B ∧ p.b = p'.b) ∧
    (p.xBox = p'.xBox ∧ p.yBox = p'.yBox) ∧
    ∀ j : Nat, 1 ≤ j → j ≤ p.nu →
      ((∃ d ∈ p.Jx, d.equalsInt j = true) ↔ ∃ d ∈ p'.Jx, d.equalsInt j = true) := by
  have hs := hp.shaped
  have hs' := hp'.shaped
  obtain ⟨hcx, hcy⟩ := upperObjective_of_text_eq hs hs' h
  obtain ⟨hd, hF⟩ := lowerObjective_of_text_eq hs hs' h
  obtain ⟨hbox, hinteger⟩ := upperBounds_of_text_eq hs hs' h
  refine ⟨sizes_of_text_eq hs hs' h, ⟨hcx, hcy, hd, hF⟩, upperRows_of_text_eq hs hs' h,
    lowerRows_of_text_eq hs hs' h, ⟨hbox, lowerBounds_of_text_eq hs hs' h⟩, fun j hpos hj => ?_⟩
  obtain ⟨i, rfl⟩ := Nat.exists_eq_add_of_le' hpos
  have hsame := hinteger i hj
  rw [isInteger, isInteger, Bool.eq_iff_iff, List.any_eq_true, List.any_eq_true] at hsame
  exact_mod_cast hsame

/-- Two variables above, of which the second is an integer, and one below, with a number as some of the
coefficients. -/
def patterned (z : Float) : Program Float where
  cx := [z, Scalar.one]
  cy := [z]
  G := [[Scalar.one, z]]
  H := [[z]]
  q := [Scalar.infinity]
  d := [Scalar.one]
  A := [[z, z]]
  B := [[Scalar.one]]
  b := [Scalar.undefined]
  F := [[z], [Scalar.one]]
  Jx := [.int 2]
  xBox := freshBox 2
  yBox := freshBox 1

theorem reachable_patterned (z : Float) : (patterned z).Reachable :=
  .built (a := (patterned z).toCoefficients.loose) rfl

/-- Zeros are not written, whatever their signs are. -/
theorem text_patterned {z z' : Float} (hz : Scalar.nonzero z = false)
    (hz' : Scalar.nonzero z' = false) : (patterned z).text = (patterned z').text := by
  have hone : Scalar.nonzero (Scalar.one : Float) = true := by decide +kernel
  simp [text, lines, rowTexts, rowText, form, terms, quadraticTerms, isInteger, patterned, hz, hz', hone]

theorem text_determines_patterned :
    (patterned (Float.ofBits 0)).text = (patterned (Float.ofBits 0x8000000000000000)).text ∧
    SameRow (patterned (Float.ofBits 0)).cx (patterned (Float.ofBits 0x8000000000000000)).cx ∧
    (patterned (Float.ofBits 0)).xBox = (patterned (Float.ofBits 0x8000000000000000)).xBox := by
  have htext := text_patterned ((Double.nonzero_eq_false_iff _).2 (.inl rfl))
    ((Double.nonzero_eq_false_iff (Float.ofBits 0x8000000000000000)).2 (.inr rfl))
  obtain ⟨-, ⟨hcx, -⟩, -, -, ⟨hbox, -⟩, -⟩ :=
    text_determines (reachable_patterned _) (reachable_patterned _) htext
  exact ⟨htext, hcx, hbox⟩

end Program
end Bilevel
