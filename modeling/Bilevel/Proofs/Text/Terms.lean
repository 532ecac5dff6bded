import Bilevel.Program.Text
import Bilevel.Proofs.Arrays
import Bilevel.Proofs.Decimal.Reading
import Bilevel.Proofs.Text.Splitting

/-!
# Bilevel.Proofs.Text.Terms

Terms and sums of terms, and what can be read off them.

* `Legible` is asked of the kind of number: texts tell numbers apart, and they consist of numeric
  characters.
* `term_injective`: a term determines its coefficient and its variables. `term_mem_formTerms`,
  `term_mem_quadraticTerms`: a term stands in a form exactly if it belongs to an entry that is not
  zero.
* `sum_injective`: a sum determines its terms.
* `sameRow_of_rowTerms`, `same_of_responseTerms`: so rows that are written with the same terms agree,
  up to the sign of zeros.
-/

namespace Bilevel

/-- Texts tell the numbers apart, and they consist of numeric characters. -/
class Legible (α : Type) [Scalar α] : Prop where
  text_injective : Function.Injective (Scalar.text : α → String)
  isNumeric_of_mem {a : α} {c : Char} : c ∈ (Scalar.text a).toList → isNumeric c = true

namespace Program

/-- The characters of terms. -/
def isTermChar (c : Char) : Bool :=
  isNumeric c || ['*', 'x', 'y'].contains c

theorem isTermChar_of_isNumeric {c : Char} (h : isNumeric c = true) : isTermChar c = true := by
  rw [isTermChar, h, Bool.true_or]

theorem ne_of_isTermChar {c d : Char} (hc : isTermChar c = true) (hd : isTermChar d = false) :
    c ≠ d := by
  rintro rfl
  rw [hc] at hd
  cases hd

/-! ## Variables -/

/-- Variables of the two levels with their positions. -/
def AreVariables (fs : List (String × Nat)) : Prop :=
  ∀ f ∈ fs, f.1 = "x" ∨ f.1 = "y"

theorem areVariables_singleton {name : String} (h : name = "x" ∨ name = "y") (j : Nat) :
    AreVariables [(name, j)] := by
  intro f hf
  rw [List.mem_singleton.1 hf]
  exact h

theorem areVariables_pair (i j : Nat) : AreVariables [("x", i), ("y", j)] := by
  intro f hf
  rcases List.mem_cons.1 hf with rfl | hf
  · exact .inl rfl
  · rw [List.mem_singleton.1 hf]
    exact .inr rfl

/-- A variable as it is written. -/
def variableChars (f : String × Nat) : List Char :=
  f.1.toList ++ Nat.toDigits 10 (f.2 + 1)

theorem toDigits_injective {m n : Nat} (h : Nat.toDigits 10 m = Nat.toDigits 10 n) : m = n := by
  rw [← Numeral.ofDigits_toDigits m, h, Numeral.ofDigits_toDigits]

theorem isTermChar_of_mem_variableChars {f : String × Nat} (hf : f.1 = "x" ∨ f.1 = "y") {c : Char}
    (hc : c ∈ variableChars f) : isTermChar c = true ∧ c ≠ '*' := by
  rcases List.mem_append.1 hc with hc | hc
  · rcases hf with hf | hf
    · rw [hf] at hc
      obtain rfl : c = 'x' := by simpa using hc
      exact ⟨rfl, by decide⟩
    · rw [hf] at hc
      obtain rfl : c = 'y' := by simpa using hc
      exact ⟨rfl, by decide⟩
  · have hdigit := Decimal.isDigit_of_mem_toDigits hc
    refine ⟨isTermChar_of_isNumeric (isNumeric_of_isDigit hdigit), ?_⟩
    rintro rfl
    cases hdigit

theorem variableChars_injective {f g : String × Nat} (hf : f.1 = "x" ∨ f.1 = "y")
    (hg : g.1 = "x" ∨ g.1 = "y") (h : variableChars f = variableChars g) : f = g := by
  obtain ⟨name, i⟩ := f
  obtain ⟨name', j⟩ := g
  have hsame : name = name' ∧ Nat.toDigits 10 (i + 1) = Nat.toDigits 10 (j + 1) := by
    rcases hf with rfl | rfl <;> rcases hg with rfl | rfl <;> simp_all [variableChars]
  rw [hsame.1, Nat.succ_injective (toDigits_injective hsame.2)]

theorem map_variableChars_injective {fs gs : List (String × Nat)} (hfs : AreVariables fs)
    (hgs : AreVariables gs) (h : fs.map variableChars = gs.map variableChars) : fs = gs := by
  induction fs generalizing gs with
  | nil => exact (List.map_eq_nil_iff.1 h.symm).symm
  | cons f fs ih =>
    cases gs with
    | nil => cases h
    | cons g gs =>
      obtain ⟨hfg, hrest⟩ := List.cons.inj h
      rw [variableChars_injective (hfs f List.mem_cons_self) (hgs g List.mem_cons_self) hfg,
        ih (fun a ha => hfs a (List.mem_cons_of_mem f ha))
          (fun a ha => hgs a (List.mem_cons_of_mem g ha)) hrest]

/-! ## Terms and sums -/

variable {α : Type} [Scalar α]

theorem toList_term (c : α) (fs : List (String × Nat)) :
    (term c fs).toList =
      (Scalar.text c).toList ++ (fs.map variableChars).flatMap ('*' :: ·) := by
  rw [term, String.toList_append, String.toList_join, List.flatMap_map, List.flatMap_map]
  congr 2
  funext f
  simp [variableChars]

theorem mem_terms {name : String} {cs : Row α} {t : String} :
    t ∈ terms name cs ↔
      ∃ j c, cs[j]? = some c ∧ Scalar.nonzero c = true ∧ t = term c [(name, j)] := by
  rw [terms, List.mem_filterMap]
  constructor
  · rintro ⟨⟨c, j⟩, hmem, ht⟩
    obtain ⟨hc, ht⟩ := Option.ite_none_right_eq_some.1 ht
    cases ht
    exact ⟨j, c, List.mk_mem_zipIdx_iff_getElem?.1 hmem, hc, rfl⟩
  · rintro ⟨j, c, hj, hc, rfl⟩
    exact ⟨(c, j), List.mk_mem_zipIdx_iff_getElem?.2 hj, if_pos hc⟩

theorem mem_quadraticTerms {m : Rows α} {t : String} :
    t ∈ quadraticTerms m ↔ ∃ i j c, m.item? i j = some c ∧ Scalar.nonzero c = true ∧
      t = term c [("x", i), ("y", j)] := by
  rw [quadraticTerms, List.mem_flatMap]
  constructor
  · rintro ⟨⟨row, i⟩, hrow, ht⟩
    obtain ⟨⟨c, j⟩, hmem, ht⟩ := List.mem_filterMap.1 ht
    obtain ⟨hc, ht⟩ := Option.ite_none_right_eq_some.1 ht
    cases ht
    refine ⟨i, j, c, ?_, hc, rfl⟩
    rw [Rows.item?, List.mk_mem_zipIdx_iff_getElem?.1 hrow]
    exact List.mk_mem_zipIdx_iff_getElem?.1 hmem
  · rintro ⟨i, j, c, hentry, hc, rfl⟩
    obtain ⟨row, hrow, hentry⟩ := Option.bind_eq_some_iff.1 hentry
    exact ⟨(row, i), List.mk_mem_zipIdx_iff_getElem?.2 hrow,
      List.mem_filterMap.2 ⟨(c, j), List.mk_mem_zipIdx_iff_getElem?.2 hentry, if_pos hc⟩⟩

/-- The terms of a form, or the zero that stands for none. -/
def formTerms (name : String) (cs : Row α) : List String :=
  match terms name cs with
  | [] => ["0"]
  | ts => ts

theorem formTerms_ne_nil (name : String) (cs : Row α) : formTerms name cs ≠ [] := by
  unfold formTerms
  split
  · exact List.cons_ne_nil _ _
  · assumption

theorem term_ne_zero (c : α) {fs : List (String × Nat)} (h : fs ≠ []) : term c fs ≠ "0" := by
  intro heq
  obtain ⟨f, fs, rfl⟩ := List.exists_cons_of_ne_nil h
  have hstar : '*' ∈ (term c (f :: fs)).toList := by
    rw [toList_term]
    simp
  rw [heq] at hstar
  simp at hstar

/-- The terms of a row of both levels' variables. -/
def rowTerms (m n : Row α) : List String :=
  formTerms "x" m ++ formTerms "y" n

/-- The terms of the follower's objective. -/
def responseTerms (d : Row α) (F : Rows α) : List String :=
  formTerms "y" d ++ quadraticTerms F

/-- The characters of a sum. -/
def sumChars (ts : List String) : List Char :=
  [' ', '+', ' '].intercalate (ts.map String.toList)

/-- All parts of a sum consist of the characters of terms. -/
def AreTerms (ts : List String) : Prop :=
  ∀ t ∈ ts, ∀ d ∈ t.toList, isTermChar d = true

theorem AreTerms.append {ts us : List String} (hts : AreTerms ts) (hus : AreTerms us) :
    AreTerms (ts ++ us) :=
  fun t ht => (List.mem_append.1 ht).elim (hts t) (hus t)

theorem AreTerms.of_mem_sumChars {ts : List String} (hts : AreTerms ts) {d : Char}
    (hd : d ∈ sumChars ts) : isTermChar d = true ∨ d = ' ' := by
  rcases Splitting.mem_intercalate hd with hd | ⟨p, hp, hd⟩
  · simp only [List.mem_cons, List.not_mem_nil, or_false] at hd
    rcases hd with rfl | rfl | rfl
    · exact .inr rfl
    · exact .inl rfl
    · exact .inr rfl
  · obtain ⟨t, ht, rfl⟩ := List.mem_map.1 hp
    exact .inl (hts t ht d hd)

theorem AreTerms.sum_injective {ts us : List String} (hts : AreTerms ts) (hus : AreTerms us)
    (hne : ts ≠ []) (hne' : us ≠ []) (h : sumChars ts = sumChars us) : ts = us := by
  have hblank : ∀ {ts : List String}, AreTerms ts → ∀ p ∈ ts.map String.toList, ' ' ∉ p := by
    intro ts hts p hp hd
    obtain ⟨t, ht, rfl⟩ := List.mem_map.1 hp
    exact ne_of_isTermChar (hts t ht _ hd) rfl rfl
  refine List.map_injective_iff.2 (fun _ _ => String.toList_injective) ?_
  exact Splitting.intercalate_injective (hblank hts) (hblank hus) (by simpa using hne)
    (by simpa using hne') h

theorem toList_form (name : String) (cs : Row α) :
    (form name cs).toList = sumChars (formTerms name cs) := by
  unfold form formTerms
  cases terms name cs with
  | nil => simp [sumChars]
  | cons t ts =>
    rw [String.toList_intercalate]
    simp [sumChars]

/-! ## Agreement -/

/-- The same number, or two zeros whose signs may differ. -/
def SameNumber (a b : α) : Prop :=
  a = b ∨ Scalar.nonzero a = false ∧ Scalar.nonzero b = false

def SameRow (r r' : Row α) : Prop := List.Forall₂ SameNumber r r'

def SameRows (m m' : Rows α) : Prop := List.Forall₂ SameRow m m'

/-- Rows agree if each number other than zero stands at the same places of both. -/
theorem sameRow_of_entries {r r' : Row α} (hlength : r.length = r'.length)
    (h : ∀ (j : Nat) (c : α), r[j]? = some c ∧ Scalar.nonzero c = true ↔
      r'[j]? = some c ∧ Scalar.nonzero c = true) : SameRow r r' := by
  refine List.forall₂_iff_get.2 ⟨hlength, fun j hj hj' => ?_⟩
  have ha : r[j]? = some r[j] := List.getElem?_eq_getElem hj
  have hb : r'[j]? = some r'[j] := List.getElem?_eq_getElem hj'
  show r[j] = r'[j] ∨ _ = false ∧ _ = false
  by_cases hzero : Scalar.nonzero r[j] = true
  · have heq := ((h j r[j]).1 ⟨ha, hzero⟩).1
    exact .inl (Option.some.inj (heq.symm.trans hb))
  · by_cases hzero' : Scalar.nonzero r'[j] = true
    · have heq := ((h j r'[j]).2 ⟨hb, hzero'⟩).1
      exact .inl (Option.some.inj (ha.symm.trans heq))
    · exact .inr ⟨Bool.not_eq_true _ ▸ hzero, Bool.not_eq_true _ ▸ hzero'⟩

theorem sameRows_of_entries {m m' : Rows α} {rows columns : Nat}
    (hm : Rows.HasShape m rows columns) (hm' : Rows.HasShape m' rows columns)
    (h : ∀ i j c, m.item? i j = some c ∧ Scalar.nonzero c = true ↔
      m'.item? i j = some c ∧ Scalar.nonzero c = true) : SameRows m m' := by
  refine List.forall₂_iff_get.2 ⟨hm.length_eq.trans hm'.length_eq.symm, fun i hi hi' => ?_⟩
  refine sameRow_of_entries ?_ fun j c => ?_
  · rw [hm.row_length _ (List.get_mem m ⟨i, hi⟩), hm'.row_length _ (List.get_mem m' ⟨i, hi'⟩)]
  · have hentry := h i j c
    rw [Rows.item?, Rows.item?, List.getElem?_eq_getElem hi, List.getElem?_eq_getElem hi'] at hentry
    exact hentry

/-! ## Terms of legible numbers -/

variable [Legible α]

theorem notMem_text {c : α} {d : Char} (h : isNumeric d = false) : d ∉ (Scalar.text c).toList := by
  intro hd
  rw [Legible.isNumeric_of_mem hd] at h
  cases h

theorem isTermChar_of_mem_term {c : α} {fs : List (String × Nat)} (hfs : AreVariables fs) {d : Char}
    (hd : d ∈ (term c fs).toList) : isTermChar d = true := by
  rw [toList_term, List.mem_append, List.mem_flatMap] at hd
  rcases hd with hd | ⟨p, hp, hd⟩
  · exact isTermChar_of_isNumeric (Legible.isNumeric_of_mem hd)
  · obtain ⟨f, hf, rfl⟩ := List.mem_map.1 hp
    rcases List.mem_cons.1 hd with rfl | hd
    · rfl
    · exact (isTermChar_of_mem_variableChars (hfs f hf) hd).1

/-- A term is cut at its stars. -/
theorem term_injective {c c' : α} {fs fs' : List (String × Nat)} (hfs : AreVariables fs)
    (hfs' : AreVariables fs') (h : term c fs = term c' fs') : c = c' ∧ fs = fs' := by
  have hparts : ∀ {c : α} {fs : List (String × Nat)}, AreVariables fs →
      ∀ p ∈ (Scalar.text c).toList :: fs.map variableChars, '*' ∉ p := by
    intro c fs hfs p hp
    rcases List.mem_cons.1 hp with rfl | hp
    · exact notMem_text rfl
    · obtain ⟨f, hf, rfl⟩ := List.mem_map.1 hp
      exact fun hstar => (isTermChar_of_mem_variableChars (hfs f hf) hstar).2 rfl
  have hchars := congrArg String.toList h
  rw [toList_term, toList_term] at hchars
  obtain ⟨htext, hvariables⟩ := Splitting.opened_injective (hparts hfs) (hparts hfs') hchars
  exact ⟨Legible.text_injective (String.toList_injective htext),
    map_variableChars_injective hfs hfs' hvariables⟩

theorem term_mem_formTerms {name : String} (hname : name = "x" ∨ name = "y") {cs : Row α} {c : α}
    {fs : List (String × Nat)} (hfs : AreVariables fs) (hne : fs ≠ []) :
    term c fs ∈ formTerms name cs ↔
      ∃ j, fs = [(name, j)] ∧ cs[j]? = some c ∧ Scalar.nonzero c = true := by
  have hterms : term c fs ∈ formTerms name cs ↔ term c fs ∈ terms name cs := by
    unfold formTerms
    split
    · rename_i heq
      rw [heq]
      simpa using term_ne_zero c hne
    · rfl
  rw [hterms, mem_terms]
  constructor
  · rintro ⟨j, c', hj, hc, heq⟩
    obtain ⟨rfl, rfl⟩ := term_injective hfs (areVariables_singleton hname j) heq
    exact ⟨j, rfl, hj, hc⟩
  · rintro ⟨j, rfl, hj, hc⟩
    exact ⟨j, c, hj, hc, rfl⟩

theorem term_mem_quadraticTerms {m : Rows α} {c : α} {fs : List (String × Nat)}
    (hfs : AreVariables fs) : term c fs ∈ quadraticTerms m ↔
      ∃ i j, fs = [("x", i), ("y", j)] ∧ m.item? i j = some c ∧ Scalar.nonzero c = true := by
  rw [mem_quadraticTerms]
  constructor
  · rintro ⟨i, j, c', hentry, hc, heq⟩
    obtain ⟨rfl, rfl⟩ := term_injective hfs (areVariables_pair i j) heq
    exact ⟨i, j, rfl, hentry, hc⟩
  · rintro ⟨i, j, rfl, hentry, hc⟩
    exact ⟨i, j, c, hentry, hc, rfl⟩

theorem isTermChar_of_mem_formTerms {name : String} (hname : name = "x" ∨ name = "y") {cs : Row α}
    {t : String} (ht : t ∈ formTerms name cs) {d : Char} (hd : d ∈ t.toList) :
    isTermChar d = true := by
  unfold formTerms at ht
  split at ht
  · rw [List.mem_singleton.1 ht] at hd
    obtain rfl : d = '0' := by simpa using hd
    rfl
  · obtain ⟨j, c, -, -, rfl⟩ := mem_terms.1 ht
    exact isTermChar_of_mem_term (areVariables_singleton hname j) hd

theorem isTermChar_of_mem_quadraticTerms {m : Rows α} {t : String} (ht : t ∈ quadraticTerms m)
    {d : Char} (hd : d ∈ t.toList) : isTermChar d = true := by
  obtain ⟨i, j, c, -, -, rfl⟩ := mem_quadraticTerms.1 ht
  exact isTermChar_of_mem_term (areVariables_pair i j) hd

theorem areTerms_formTerms {name : String} (hname : name = "x" ∨ name = "y") (cs : Row α) :
    AreTerms (formTerms name cs) :=
  fun _ ht _ => isTermChar_of_mem_formTerms hname ht

theorem areTerms_quadraticTerms (m : Rows α) : AreTerms (quadraticTerms m) :=
  fun _ ht _ => isTermChar_of_mem_quadraticTerms ht

theorem areTerms_rowTerms (m n : Row α) : AreTerms (rowTerms m n) :=
  (areTerms_formTerms (.inl rfl) m).append (areTerms_formTerms (.inr rfl) n)

theorem areTerms_responseTerms (d : Row α) (F : Rows α) : AreTerms (responseTerms d F) :=
  (areTerms_formTerms (.inr rfl) d).append (areTerms_quadraticTerms F)

theorem term_mem_rowTerms {m n : Row α} {c : α} {j : Nat} :
    (term c [("x", j)] ∈ rowTerms m n ↔ m[j]? = some c ∧ Scalar.nonzero c = true) ∧
    (term c [("y", j)] ∈ rowTerms m n ↔ n[j]? = some c ∧ Scalar.nonzero c = true) := by
  have hx := areVariables_singleton (.inl rfl : "x" = "x" ∨ _) j
  have hy := areVariables_singleton (.inr rfl : _ ∨ "y" = "y") j
  rw [rowTerms, List.mem_append, List.mem_append, term_mem_formTerms (.inl rfl) hx (by simp),
    term_mem_formTerms (.inr rfl) hx (by simp), term_mem_formTerms (.inl rfl) hy (by simp),
    term_mem_formTerms (.inr rfl) hy (by simp)]
  simp

theorem mem_responseTerms_single {d : Row α} {F : Rows α} {c : α} {j : Nat} :
    term c [("y", j)] ∈ responseTerms d F ↔ d[j]? = some c ∧ Scalar.nonzero c = true := by
  have hy := areVariables_singleton (.inr rfl : _ ∨ "y" = "y") j
  rw [responseTerms, List.mem_append, term_mem_formTerms (.inr rfl) hy (by simp),
    term_mem_quadraticTerms hy]
  simp

theorem mem_responseTerms_pair {d : Row α} {F : Rows α} {c : α} {i j : Nat} :
    term c [("x", i), ("y", j)] ∈ responseTerms d F ↔
      F.item? i j = some c ∧ Scalar.nonzero c = true := by
  have hxy := areVariables_pair i j
  rw [responseTerms, List.mem_append, term_mem_formTerms (.inr rfl) hxy (by simp),
    term_mem_quadraticTerms hxy]
  simp

theorem sameRow_of_rowTerms {m n m' n' : Row α} (hm : m.length = m'.length)
    (hn : n.length = n'.length) (h : rowTerms m n = rowTerms m' n') :
    SameRow m m' ∧ SameRow n n' := by
  refine ⟨sameRow_of_entries hm fun j c => ?_, sameRow_of_entries hn fun j c => ?_⟩
  · rw [← term_mem_rowTerms.1, h, term_mem_rowTerms.1]
  · rw [← term_mem_rowTerms.2, h, term_mem_rowTerms.2]

theorem same_of_responseTerms {d d' : Row α} {F F' : Rows α} {nu nl : Nat}
    (hd : d.length = d'.length) (hF : Rows.HasShape F nu nl) (hF' : Rows.HasShape F' nu nl)
    (h : responseTerms d F = responseTerms d' F') : SameRow d d' ∧ SameRows F F' := by
  refine ⟨sameRow_of_entries hd fun j c => ?_, sameRows_of_entries hF hF' fun i j c => ?_⟩
  · rw [← mem_responseTerms_single, h, mem_responseTerms_single]
  · rw [← mem_responseTerms_pair, h, mem_responseTerms_pair]

end Program
end Bilevel
