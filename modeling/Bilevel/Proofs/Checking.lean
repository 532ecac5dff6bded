import Bilevel.Program.Feasible
import Bilevel.Proofs.Arrays

/-!
# Bilevel.Proofs.Checking

Checks at work: what they come to, and what they log.

* `Checking.Reports`: a check comes to the same whatever has been logged before, and adds one line if
  it rejects and none otherwise. `reports_bind` and `Reports.andThen` put checks together.
* `reports_pointCheck`: the checks of points are like this.
* `firstFractional_cons`, `upperVerdict_steps`, `lowerVerdict_steps`, `check_steps`: what checks come to, step by
  step and without the log.
-/

namespace Bilevel

variable {α β γ : Type}

namespace Checking

theorem outcome_bind (c : Checking α β) (f : β → Checking α γ) (log : List LogLine) :
    (c >>= f).outcome log = match c.outcome log with
      | (.ok b, log) => (f b).outcome log
      | (.error e, log) => (.error e, log) := by
  have hrun : (c >>= f).outcome log =
      ExceptT.bindCont f (c.outcome log).1 (c.outcome log).2 := rfl
  rw [hrun]
  rcases c.outcome log with ⟨e | b, log'⟩
  · rfl
  · rfl

/-- A step that may fail, before a check. -/
theorem verdict_bind (x : Except (Fault α) β) (f : β → Checking α γ) :
    (liftM x >>= f : Checking α γ).verdict = x >>= fun b => (f b).verdict := by
  cases x with
  | error e => rfl
  | ok b => rfl

variable [Scalar α]

/-- The lines that go with what a check comes to. -/
def lines : Except (Fault α) (Option (Rejection α)) → List LogLine
  | .ok (some r) => [r.logLine]
  | .ok none | .error _ => []

/-- One line for a rejection, and no other line; what has been logged before makes no difference. -/
def Reports (c : Checking α (Option (Rejection α))) : Prop :=
  ∀ log, c.outcome log = (c.verdict, log ++ lines c.verdict)

theorem reports_reject (r : Rejection α) : (reject r).Reports := fun _ => rfl

theorem reports_accept : (pure none : Checking α (Option (Rejection α))).Reports := fun log =>
  congrArg (Prod.mk (Except.ok none)) (List.append_nil log).symm

theorem reports_throw (f : Fault α) : (throw f : Checking α (Option (Rejection α))).Reports :=
  fun log => congrArg (Prod.mk (Except.error f)) (List.append_nil log).symm

/-- A step that may fail logs nothing. -/
theorem reports_bind {x : Except (Fault α) β} {f : β → Checking α (Option (Rejection α))}
    (h : ∀ b, (f b).Reports) : (liftM x >>= f : Checking α (Option (Rejection α))).Reports := by
  cases x with
  | error e => exact reports_throw e
  | ok b => exact h b

section AndThen

variable {c d : Checking α (Option (Rejection α))} (hc : c.Reports) (hd : d.Reports)

include hc hd

theorem Reports.outcome_andThen (log : List LogLine) :
    (c.andThen d).outcome log = match c.verdict with
      | .ok none => (d.verdict, log ++ lines d.verdict)
      | .ok (some r) => (.ok (some r), log ++ [r.logLine])
      | .error f => (.error f, log) := by
  rw [andThen, outcome_bind, hc]
  rcases c.verdict with f | _ | r
  · exact congrArg (Prod.mk _) (List.append_nil log)
  · simp only [lines, List.append_nil]
    exact hd log
  · rfl

theorem Reports.verdict_andThen :
    (c.andThen d).verdict = (do
      match ← c.verdict with
      | some r => return some r
      | none => d.verdict) := by
  rw [verdict, hc.outcome_andThen hd]
  rcases c.verdict with f | _ | r
  · rfl
  · rfl
  · rfl

/-- The second check logs only if the first one has not. -/
theorem Reports.andThen : (c.andThen d).Reports := by
  intro log
  rw [hc.outcome_andThen hd, hc.verdict_andThen hd]
  rcases c.verdict with f | _ | r
  · exact congrArg (Prod.mk _) (List.append_nil log).symm
  · rfl
  · rfl

end AndThen

end Checking

namespace Program

open Checking Scalar

variable [Scalar α]

/-! ## Points -/

theorem toTensor_of_coordinates {d : Datum α} {t : Tensor α}
    (h : coordinates d = .ok t) : d.toTensor = .ok t := by
  rw [coordinates] at h
  cases hd : d.toTensor with
  | ok u =>
    rw [hd] at h
    cases h
    rfl
  | error why =>
    rw [hd] at h
    cases h

/-- A point that is taken has one coordinate for each variable. -/
theorem exists_of_point {p : Program α} {x y : Datum α} {xs ys : Row α}
    (h : p.point x y = .ok (xs, ys)) :
    ∃ u v : Tensor α, x.toTensor = .ok u ∧ y.toTensor = .ok v ∧ u.shape = [p.nu] ∧
      v.shape = [p.nl] ∧ xs = u.entries ∧ ys = v.entries := by
  obtain ⟨u, hu, h⟩ := exists_of_bind h
  obtain ⟨v, hv, h⟩ := exists_of_bind h
  split at h
  · rename_i hshape
    cases h
    exact ⟨u, v, toTensor_of_coordinates hu, toTensor_of_coordinates hv, hshape.1, hshape.2, rfl, rfl⟩
  · cases h

theorem length_of_point {p : Program α} {x y : Datum α} {xs ys : Row α}
    (h : p.point x y = .ok (xs, ys)) : xs.length = p.nu ∧ ys.length = p.nl := by
  obtain ⟨u, v, hu, hv, hus, hvs, rfl, rfl⟩ := exists_of_point h
  exact ⟨Datum.length_row hu hus, Datum.length_row hv hvs⟩

/-! ## Logs -/

theorem reports_integerCheck (x : Row α) (eps : α) (J : List (Datum α)) :
    (integerCheck x eps J).Reports := by
  induction J with
  | nil => exact reports_accept
  | cons j J ih =>
    rw [integerCheck]
    split
    · exact reports_throw _
    · split
      · exact reports_throw _
      · split
        · exact reports_reject _
        · exact ih

theorem reports_upperCheck (p : Program α) (x y : Row α) (eps : Option (Datum α)) :
    (p.upperCheck x y eps).Reports := by
  refine reports_bind fun _ => reports_bind fun tolerance => reports_bind fun holds => ?_
  split
  · exact reports_reject _
  · refine reports_bind fun e => ?_
    split
    · exact reports_reject _
    · exact reports_integerCheck x e p.Jx

theorem reports_lowerCheck (p : Program α) (x y : Row α) (eps : Option (Datum α)) :
    (p.lowerCheck x y eps).Reports := by
  refine reports_bind fun tolerance => reports_bind fun holds => ?_
  split
  · exact reports_reject _
  · refine reports_bind fun e => ?_
    split
    · exact reports_reject _
    · exact reports_accept

theorem reports_pointCheck (p : Program α) (scope : Scope) (x y : Datum α)
    (eps : Option (Datum α)) : (p.pointCheck scope x y eps).Reports := by
  refine reports_bind fun point => ?_
  cases scope with
  | upper => exact p.reports_upperCheck _ _ eps
  | lower => exact p.reports_lowerCheck _ _ eps
  | both => exact (p.reports_upperCheck _ _ eps).andThen (p.reports_lowerCheck _ _ eps)

/-! ## Verdicts -/

theorem firstFractional_cons (x : Row α) (eps : α) (j : Datum α) (J : List (Datum α)) :
    firstFractional x eps (j :: J) =
      match (position? j).bind fun i => x[i]? with
      | none => throw .notPosition
      | some v =>
        match distance? v with
        | none => throw .notRoundable
        | some far => if lt eps far then return some (.fractional j v) else firstFractional x eps J := by
  rw [firstFractional, integerCheck]
  cases (position? j).bind fun i => x[i]? with
  | none => rfl
  | some v =>
    simp only
    cases distance? v with
    | none => rfl
    | some far =>
      simp only
      split
      · rfl
      · rfl

theorem upperVerdict_steps (p : Program α) (x y : Row α) (eps : Option (Datum α)) :
    p.upperVerdict x y eps = (do
      indicesInRange p.nu p.Jx
      let tolerance ← Tolerance.ofRequest eps
      if !(← tolerance.holds (excess p.G p.H p.q x y)) then return some .upperRows
      let eps ← tolerance.toNumber
      if !boundsHold p.xBox x eps then return some .upperBounds
      firstFractional x eps p.Jx) := by
  rw [upperVerdict, upperCheck]
  refine (verdict_bind _ _).trans (bind_congr fun _ => (verdict_bind _ _).trans
    (bind_congr fun tolerance => (verdict_bind _ _).trans (bind_congr fun holds => ?_)))
  cases holds with
  | false => rfl
  | true =>
    refine (verdict_bind _ _).trans (bind_congr fun e => ?_)
    cases boundsHold p.xBox x e with
    | false => rfl
    | true => rfl

theorem lowerVerdict_steps (p : Program α) (x y : Row α) (eps : Option (Datum α)) :
    p.lowerVerdict x y eps = (do
      let tolerance ← Tolerance.ofRequest eps
      if !(← tolerance.holds (excess p.A p.B p.b x y)) then return some .lowerRows
      let eps ← tolerance.toNumber
      if !boundsHold p.yBox y eps then return some .lowerBounds
      return none) := by
  rw [lowerVerdict, lowerCheck]
  refine (verdict_bind _ _).trans (bind_congr fun tolerance => (verdict_bind _ _).trans
    (bind_congr fun holds => ?_))
  cases holds with
  | false => rfl
  | true =>
    refine (verdict_bind _ _).trans (bind_congr fun e => ?_)
    cases boundsHold p.yBox y e with
    | false => rfl
    | true => rfl

theorem check_steps (p : Program α) (scope : Scope) (x y : Datum α) (eps : Option (Datum α)) :
    p.check scope x y eps = (do
      let (x, y) ← p.point x y
      match scope with
      | .upper => p.upperVerdict x y eps
      | .lower => p.lowerVerdict x y eps
      | .both =>
        match ← p.upperVerdict x y eps with
        | some r => return some r
        | none => p.lowerVerdict x y eps) := by
  rw [check, pointCheck]
  refine (verdict_bind _ _).trans (bind_congr fun point => ?_)
  cases scope with
  | upper => rfl
  | lower => rfl
  | both => exact (p.reports_upperCheck _ _ eps).verdict_andThen (p.reports_lowerCheck _ _ eps)

/-- A point that is checked to the end was taken. -/
theorem exists_point_of_check {p : Program α} {scope : Scope} {x y : Datum α}
    {eps : Option (Datum α)} {verdict : Option (Rejection α)}
    (h : p.check scope x y eps = .ok verdict) : ∃ xs ys, p.point x y = .ok (xs, ys) := by
  rw [check_steps] at h
  obtain ⟨⟨xs, ys⟩, hpoint, -⟩ := exists_of_bind h
  exact ⟨xs, ys, hpoint⟩

theorem check_of_point {p : Program α} {x y : Datum α} {xs ys : Row α}
    (h : p.point x y = .ok (xs, ys)) (eps : Option (Datum α)) :
    p.check .upper x y eps = p.upperVerdict xs ys eps ∧
    p.check .lower x y eps = p.lowerVerdict xs ys eps ∧
    p.check .both x y eps = (do
      match ← p.upperVerdict xs ys eps with
      | some r => return some r
      | none => p.lowerVerdict xs ys eps) := by
  refine ⟨?_, ?_, ?_⟩
  · rw [check_steps, h]
    rfl
  · rw [check_steps, h]
    rfl
  · rw [check_steps, h]
    rfl

end Program
end Bilevel
