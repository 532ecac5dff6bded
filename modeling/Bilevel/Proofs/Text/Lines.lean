import Bilevel.Proofs.Text.Terms

/-!
# Bilevel.Proofs.Text.Lines

The lines of a program's text, and what can be read off them.

* `toList_rowText`, `toList_boundText`: rows and bounds as characters.
* `same_of_rowTexts`: the rows of a level agree if they are written alike, up to the signs of zeros.
* `eq_of_markedTexts`: the bounds of a level are the same if they are written alike, and so are the
  marks behind them.
-/

namespace Bilevel
namespace Program

variable {α : Type} [Scalar α]

/-! ## Characters of lines -/

theorem rowTerms_ne_nil (m n : Row α) : rowTerms m n ≠ [] := by
  simp [rowTerms, formTerms_ne_nil]

theorem responseTerms_ne_nil (d : Row α) (F : Rows α) : responseTerms d F ≠ [] := by
  simp [responseTerms, formTerms_ne_nil]

theorem sumChars_append {ts us : List String} (hts : ts ≠ []) (hus : us ≠ []) :
    sumChars (ts ++ us) = sumChars ts ++ ([' ', '+', ' '] ++ sumChars us) := by
  rw [sumChars, List.map_append, Splitting.intercalate_append (by simpa using hts) (by simpa using hus)]
  rfl

theorem toList_forms (m n : Row α) :
    (form "x" m ++ " + " ++ form "y" n).toList = sumChars (rowTerms m n) := by
  rw [String.toList_append, String.toList_append, toList_form, toList_form, rowTerms,
    sumChars_append (formTerms_ne_nil "x" m) (formTerms_ne_nil "y" n), List.append_assoc]
  rfl

theorem toList_response (d : Row α) (F : Rows α) :
    (" + ".intercalate (form "y" d :: quadraticTerms F)).toList = sumChars (responseTerms d F) := by
  rw [String.toList_intercalate, List.map_cons, toList_form, responseTerms]
  cases hts : quadraticTerms F with
  | nil => simp
  | cons t ts =>
    rw [sumChars_append (formTerms_ne_nil "y" d) (List.cons_ne_nil t ts), List.map_cons,
      List.intercalate_cons_cons]
    simp [sumChars]

theorem toList_rowText (m n : Row α) (rhs : α) :
    (rowText m n rhs).toList =
      (sumChars (rowTerms m n) ++ [' ']) ++ '<' :: '=' :: ' ' :: (Scalar.text rhs).toList := by
  rw [rowText, String.toList_append, String.toList_append, toList_forms]
  simp

theorem toList_boundText (name : String) (j : Nat) (low high : α) :
    (boundText name j low high).toList = variableChars (name, j) ++ ' ' :: '∈' :: ' ' :: '[' ::
      ((Scalar.text low).toList ++ ',' :: ' ' :: ((Scalar.text high).toList ++ [']'])) := by
  simp [boundText, variableChars]

variable [Legible α]

/-! ## Rows -/

theorem same_of_rowText {m n m' n' : Row α} {c c' : α} (hm : m.length = m'.length)
    (hn : n.length = n'.length) (h : rowText m n c = rowText m' n' c') :
    SameRow m m' ∧ SameRow n n' ∧ c = c' := by
  have hcut : ∀ m n : Row α, '<' ∉ sumChars (rowTerms m n) ++ [' '] := by
    intro m n hmem
    rcases List.mem_append.1 hmem with hmem | hmem
    · rcases (areTerms_rowTerms m n).of_mem_sumChars hmem with hmem | hmem <;> cases hmem
    · simp at hmem
  have hchars := congrArg String.toList h
  rw [toList_rowText, toList_rowText] at hchars
  obtain ⟨hsum, htext⟩ := Splitting.cut (hcut m n) (hcut m' n') hchars
  have hterms := (areTerms_rowTerms m n).sum_injective (areTerms_rowTerms m' n')
    (rowTerms_ne_nil m n) (rowTerms_ne_nil m' n') (List.append_cancel_right hsum)
  obtain ⟨hsame, hsame'⟩ := sameRow_of_rowTerms hm hn hterms
  simp only [List.cons.injEq, true_and] at htext
  exact ⟨hsame, hsame', Legible.text_injective (String.toList_injective htext)⟩

/-- The rows of a level, which are written one by one. -/
theorem same_of_rowTexts {m n m' n' : Rows α} {c c' : Row α} {nu nl : Nat}
    (hm : Rows.HasShape m c.length nu) (hn : Rows.HasShape n c.length nl)
    (hm' : Rows.HasShape m' c'.length nu) (hn' : Rows.HasShape n' c'.length nl)
    (h : rowTexts m n c = rowTexts m' n' c') : SameRows m m' ∧ SameRows n n' ∧ c = c' := by
  have hrows : List.Forall₂
      (fun r r' => SameRow r.1 r'.1 ∧ SameRow r.2.1 r'.2.1 ∧ r.2.2 = r'.2.2)
      (m.zip (n.zip c)) (m'.zip (n'.zip c')) := by
    refine Splitting.forall₂_of_map_eq ?_ h
    rintro ⟨r, s, v⟩ hmem ⟨r', s', v'⟩ hmem' heq
    obtain ⟨hr, hmem⟩ := List.of_mem_zip hmem
    obtain ⟨hr', hmem'⟩ := List.of_mem_zip hmem'
    have hs := (List.of_mem_zip hmem).1
    have hs' := (List.of_mem_zip hmem').1
    exact same_of_rowText ((hm.row_length r hr).trans (hm'.row_length r' hr').symm)
      ((hn.row_length s hs).trans (hn'.row_length s' hs').symm) heq
  obtain ⟨h1, h2, h3⟩ := Splitting.map_zip_zip hm.length_eq hn.length_eq
  obtain ⟨h1', h2', h3'⟩ := Splitting.map_zip_zip hm'.length_eq hn'.length_eq
  refine ⟨?_, ?_, ?_⟩
  · rw [← h1, ← h1']
    exact Splitting.forall₂_of_map (hrows.imp fun _ _ h => h.1)
  · rw [← h2, ← h2']
    exact Splitting.forall₂_of_map (hrows.imp fun _ _ h => h.2.1)
  · rw [← h3, ← h3', ← List.forall₂_eq_eq_eq]
    exact Splitting.forall₂_of_map (hrows.imp fun _ _ h => h.2.2)

/-! ## Bounds -/

theorem eq_of_boundText {name : String} (hname : name = "x" ∨ name = "y") {j j' : Nat}
    {low high low' high' : α} {tail tail' : String}
    (h : boundText name j low high ++ tail = boundText name j' low' high' ++ tail') :
    (low, high) = (low', high') ∧ j = j' ∧ tail = tail' := by
  have hblank : ∀ j, ' ' ∉ variableChars (name, j) := fun j hmem =>
    ne_of_isTermChar (isTermChar_of_mem_variableChars hname hmem).1 rfl rfl
  have hchars := congrArg String.toList h
  simp only [String.toList_append, toList_boundText, List.append_assoc, List.cons_append] at hchars
  obtain ⟨hvariable, hrest⟩ := Splitting.cut (hblank j) (hblank j') hchars
  simp only [List.cons.injEq, true_and] at hrest
  obtain ⟨hlow, hrest⟩ := Splitting.cut (notMem_text rfl) (notMem_text rfl) hrest
  simp only [List.cons.injEq, true_and] at hrest
  obtain ⟨hhigh, htail⟩ := Splitting.cut (notMem_text rfl) (notMem_text rfl) hrest
  refine ⟨?_, ?_, String.toList_injective htail⟩
  · rw [Legible.text_injective (String.toList_injective hlow),
      Legible.text_injective (String.toList_injective hhigh)]
  · exact (Prod.mk.inj (variableChars_injective hname hname hvariable)).2

/-- The bounds of a level with a mark after each. -/
def markedTexts (name : String) (box : Box α) (mark : Nat → String) : List String :=
  ((box.lower.zip box.upper).zipIdx).map fun ((low, high), j) =>
    boundText name j low high ++ mark j

theorem eq_of_markedTexts {name : String} (hname : name = "x" ∨ name = "y") {box box' : Box α}
    (hbox : box.lower.length = box.upper.length) (hbox' : box'.lower.length = box'.upper.length)
    {mark mark' : Nat → String} (h : markedTexts name box mark = markedTexts name box' mark') :
    box = box' ∧ ∀ j < box.lower.length, mark j = mark' j := by
  have hall : List.Forall₂ (fun b b' => b = b' ∧ mark b.2 = mark' b'.2)
      (box.lower.zip box.upper).zipIdx (box'.lower.zip box'.upper).zipIdx := by
    refine Splitting.forall₂_of_map_eq ?_ h
    rintro ⟨⟨low, high⟩, j⟩ - ⟨⟨low', high'⟩, j'⟩ - heq
    obtain ⟨hpair, hj, hmark⟩ := eq_of_boundText hname heq
    exact ⟨by rw [hpair, hj], hmark⟩
  have heq : (box.lower.zip box.upper).zipIdx = (box'.lower.zip box'.upper).zipIdx :=
    List.forall₂_eq_eq_eq ▸ hall.imp fun _ _ h => h.1
  have hpairs := congrArg (List.map Prod.fst) heq
  rw [List.zipIdx_map_fst, List.zipIdx_map_fst] at hpairs
  refine ⟨?_, fun j hj => ?_⟩
  · have hlower := congrArg (List.map Prod.fst) hpairs
    have hupper := congrArg (List.map Prod.snd) hpairs
    rw [List.map_fst_zip hbox.le, List.map_fst_zip hbox'.le] at hlower
    rw [List.map_snd_zip hbox.ge, List.map_snd_zip hbox'.ge] at hupper
    cases box
    cases box'
    simp only at hlower hupper
    rw [hlower, hupper]
  · rw [← heq, List.forall₂_same] at hall
    have hlength : j < (box.lower.zip box.upper).length := by
      rw [List.length_zip]
      omega
    exact (hall _ (List.mk_mem_zipIdx_iff_getElem?.2 (List.getElem?_eq_getElem hlength))).2

end Program
end Bilevel
