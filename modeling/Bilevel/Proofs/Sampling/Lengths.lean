import Bilevel.Proofs.Sampling.Room

/-!
# Bilevel.Proofs.Sampling.Lengths

Dense programs that are asked for with negative sizes.

* `drawnArrays`: the arrays that are drawn for every program, in their order.
* `sizes_of_refused`: a request fails at the first of them that cannot be drawn.
* `sizes_of_negative`: a negative size is always refused, as a wrong length unless there is no room for
  an array that comes before the first one with a negative length.
-/

namespace Bilevel

theorem Capacity.cases_of_check {fits : Nat → Bool} {length : Int} {why : CapacityFault}
    (h : check fits length = .error why) :
    (why = .unaddressable ∧ addressable < length) ∨ (why = .unavailable ∧ fits length.toNat = false) := by
  unfold check at h
  split at h
  · rename_i hlength
    cases h
    exact .inl ⟨rfl, hlength⟩
  · split at h
    · cases h
    · rename_i hfits
      cases h
      exact .inr ⟨rfl, Bool.eq_false_iff.2 hfits⟩

namespace Sampling
namespace DenseRequest

variable {α : Type} {memory : Memory}

/-- The dimensions of the arrays that are drawn for every program, in their order. The follower's
objective is left out; it is as long as the second array. -/
def drawnArrays (nu nl mu ml : Int) : List (List Int) :=
  [[nu], [nl], [mu, nu], [mu, nl], [mu], [ml, nu], [ml, nl], [ml]]

/-- Refuses an array that cannot be drawn. -/
def checkArray (memory : Memory) (seed : Option Int) (dims : List Int) :
    Except (Fault α) Unit := do
  drawable memory (.usable seed) (← dims.mapM fun n => extent (.int n : Datum α))

/-- A wrong length, whatever room there is. -/
def RefusesLength (f : Fault α) : Prop :=
  f = .negativeCount ∨ f = .oversized

/-- There is no room for an array that is drawn before all those with a negative length. -/
def RunsOutOfRoom (memory : Memory) (nu nl mu ml : Int) : Prop :=
  ∃ before dims after, drawnArrays nu nl mu ml = before ++ dims :: after ∧
    (∀ a ∈ dims :: before, ∀ n ∈ a, 0 ≤ n) ∧ memory.numbers dims.prod.toNat = false

/-! ## One array -/

section Array

variable {seed : Option Int} {dims : List Int} {f : Fault α}

theorem checkArray_one (n : Int) :
    checkArray (α := α) memory seed [n] = extent (.int n : Datum α) >>= fun n =>
      drawable memory (.usable seed) [n] := by
  simp only [checkArray, List.mapM_cons, List.mapM_nil, bind_assoc, pure_bind]

theorem checkArray_two (m n : Int) :
    checkArray (α := α) memory seed [m, n] = extent (.int m : Datum α) >>= fun m =>
      extent (.int n : Datum α) >>= fun n => drawable memory (.usable seed) [m, n] := by
  simp only [checkArray, List.mapM_cons, List.mapM_nil, bind_assoc, pure_bind]

theorem mapM_extent (dims : List Int) :
    dims.mapM (fun n => extent (.int n : Datum α)) = .ok dims ∨
      dims.mapM (fun n => extent (.int n : Datum α)) = .error .oversized := by
  induction dims with
  | nil => exact .inl rfl
  | cons n dims ih =>
    rw [List.mapM_cons, extent]
    split
    · rcases ih with h | h <;> rw [h]
      · exact .inl rfl
      · exact .inr rfl
    · exact .inr rfl

theorem nonneg_of_not_any (h : ¬dims.any (· < 0) = true) : ∀ n ∈ dims, 0 ≤ n := by
  simpa using h

theorem nonneg_of_entryCount {count : Nat} (h : entryCount (α := α) memory dims = .ok count) :
    ∀ n ∈ dims, 0 ≤ n := by
  unfold entryCount at h
  split at h
  · cases h
  · rename_i hany
    exact nonneg_of_not_any hany

theorem cases_of_entryCount (h : entryCount memory dims = .error f) :
    RefusesLength f ∨ f = .capacity .unavailable ∧ (∀ n ∈ dims, 0 ≤ n) ∧
      memory.numbers dims.prod.toNat = false := by
  unfold entryCount at h
  split at h
  · cases h
    exact .inl (.inl rfl)
  · rename_i hany
    split at h
    · cases h
      exact .inl (.inr rfl)
    · rename_i hvolume
      rw [← List.prod_eq_foldl] at h
      dsimp only at h
      split at h
      · cases h
      · rename_i why hwhy
        cases h
        rcases Capacity.cases_of_check hwhy with ⟨-, hcount⟩ | ⟨rfl, hroom⟩
        · exact absurd (prod_le_addressable (not_lt.1 hvolume)) hcount.not_ge
        · exact .inr ⟨rfl, nonneg_of_not_any hany, hroom⟩

theorem nonneg_of_checkArray {u : Unit} (h : checkArray (α := α) memory seed dims = .ok u) :
    ∀ n ∈ dims, 0 ≤ n := by
  obtain ⟨lengths, hlengths, h⟩ := exists_of_bind h
  obtain ⟨count, hcount, -⟩ := exists_of_bind h
  rcases mapM_extent (α := α) dims with hdims | hdims
  · cases hdims.symm.trans hlengths
    exact nonneg_of_entryCount hcount
  · cases hdims.symm.trans hlengths

theorem cases_of_checkArray (h : checkArray memory seed dims = .error f) :
    RefusesLength f ∨ f = .capacity .unavailable ∧ (∀ n ∈ dims, 0 ≤ n) ∧
      memory.numbers dims.prod.toNat = false := by
  rw [checkArray] at h
  rcases mapM_extent (α := α) dims with hdims | hdims <;> rw [hdims] at h
  · refine cases_of_entryCount ?_
    have hdrawable : drawable memory (.usable seed) dims = .error f := h
    rw [drawable] at hdrawable
    cases hcount : entryCount (α := α) memory dims with
    | error e =>
      rw [hcount] at hdrawable
      cases hdrawable
      rfl
    | ok count =>
      rw [hcount] at hdrawable
      cases hdrawable
  · cases h
    exact .inl (.inr rfl)

end Array

/-! ## All arrays -/

variable {nu nl mu ml nInt : Int} {bilinear : Bool} {seed : Option Int} {box : α}

/-- A request fails with the fault of its first array that cannot be drawn. -/
theorem sizes_of_refused {f : Fault α}
    (h : (drawnArrays nu nl mu ml).forM (checkArray memory seed) = .error f) :
    (ofNumbers nu nl mu ml nInt bilinear seed box).sizes memory = .error f := by
  have hcons (dims : List Int) (rest : List (List Int)) :
      (dims :: rest).forM (checkArray (α := α) memory seed) =
        checkArray memory seed dims >>= fun _ => rest.forM (checkArray memory seed) := rfl
  have hok {β γ : Type} (b : β) (g : β → Except (Fault α) γ) : Except.ok b >>= g = g b := rfl
  simp only [drawnArrays, hcons, checkArray_one, checkArray_two, bind_assoc] at h
  simp only [sizes, ofNumbers, extents, bind_assoc, pure_bind]
  refine error_of_bind h fun _ hnu h => error_of_bind h fun _ _ h => ?_
  refine error_of_bind h fun _ hnl h => error_of_bind h fun _ _ h => ?_
  refine error_of_bind h fun _ hmu h => ?_
  -- a length is read once for all the arrays it belongs to
  simp only [hnu, hnl, hmu, hok] at h ⊢
  refine error_of_bind h fun _ _ h => error_of_bind h fun _ _ h => error_of_bind h fun _ _ h => ?_
  refine error_of_bind h fun _ hml h => ?_
  simp only [hml, hok] at h
  refine error_of_bind h fun _ _ h => error_of_bind h fun _ _ h => error_of_bind h fun _ _ h => ?_
  cases h

/-- Every size is the length of an array, so that a negative one is come across. -/
theorem sizes_of_negative (h : nu < 0 ∨ nl < 0 ∨ mu < 0 ∨ ml < 0) :
    ∃ f, (ofNumbers nu nl mu ml nInt bilinear seed box).sizes memory = .error f ∧
      (RefusesLength f ∨ f = .capacity .unavailable ∧ RunsOutOfRoom memory nu nl mu ml) := by
  rcases forM_cases (checkArray (α := α) memory seed) (drawnArrays nu nl mu ml) with
    hall | ⟨before, dims, after, f, hsplit, hbefore, hdims, hrun⟩
  · have hnonneg : ∀ n ∈ [nu, nl, mu, ml], 0 ≤ n := fun n hn => by
      refine nonneg_of_checkArray (hall [n] ?_) n List.mem_cons_self
      simp only [drawnArrays, List.mem_cons] at hn ⊢
      tauto
    simp only [List.forall_mem_cons] at hnonneg
    omega
  · refine ⟨f, sizes_of_refused hrun, (cases_of_checkArray hdims).imp_right ?_⟩
    rintro ⟨hf, hnonneg, hroom⟩
    exact ⟨hf, before, dims, after, hsplit,
      List.forall_mem_cons.2 ⟨hnonneg, fun a ha => nonneg_of_checkArray (hbefore a ha)⟩, hroom⟩

end DenseRequest
end Sampling
end Bilevel
