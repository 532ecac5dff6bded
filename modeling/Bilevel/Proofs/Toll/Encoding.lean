import Bilevel.Proofs.Arrays
import Bilevel.Proofs.Graph.Walk
import Bilevel.Proofs.Toll.Request
import Bilevel.Toll.Flow

/-!
# Bilevel.Proofs.Toll.Encoding

Lists of nodes as flows.

* `arcNumber_eq_ok_iff`: two nodes have the number at which their arc is written down, and no two arcs
  share one. Where there is no such arc, this is what is reported (`arcNumber_of_notMem`).
* `pathToFlow_of_arcs`: a list of nodes that follows the arcs becomes the row that is one at the numbers
  of its arcs and zero elsewhere. `pathToFlow_of_unknown`: any other list of integers is refused.
-/

namespace Bilevel

/-- The pairs of consecutive nodes in a list. -/
def stepsOf (path : List Int) : List (Int × Int) :=
  path.zip path.tail

theorem stepsOf_natCast (path : List Nat) :
    stepsOf (path.map fun (v : Nat) => (v : Int)) =
      (arcsOf path).map fun a => ((a.1 : Int), (a.2 : Int)) := by
  rw [stepsOf, ← List.map_tail, List.zip_map, arcsOf]
  rfl

theorem natCast_mem_stepsOf {path : List Nat} {a : Nat × Nat} :
    ((a.1 : Int), (a.2 : Int)) ∈ stepsOf (path.map fun (v : Nat) => (v : Int)) ↔
      a ∈ arcsOf path := by
  rw [stepsOf_natCast, List.mem_map]
  constructor
  · rintro ⟨b, hb, hba⟩
    rw [Prod.mk.injEq, Int.natCast_inj, Int.natCast_inj] at hba
    rwa [← Prod.ext hba.1 hba.2]
  · exact fun h => ⟨a, h, rfl⟩

namespace TollNetwork

variable {α : Type} {t : TollNetwork α} {u v : Int} {e : Nat}

/-! ## The numbers of the arcs -/

theorem getElem?_arcNames_iff (ht : t.toNamedNetwork.Numbered) {a : Nat × Nat} :
    t.arcNames[e]? = some (.int a.1, .int a.2) ↔ t.graph.ordered[e]? = some a := by
  rw [ht.arcNames_eq, List.getElem?_map, Option.map_eq_some_iff]
  constructor
  · rintro ⟨b, hb, hba⟩
    simp only [Prod.mk.injEq, Datum.int.injEq, Int.natCast_inj] at hba
    rw [hb, Prod.ext hba.1 hba.2]
  · exact fun h => ⟨a, h, rfl⟩

theorem exists_of_getElem?_arcNames (ht : t.toNamedNetwork.Numbered) {b c : Datum α}
    (h : t.arcNames[e]? = some (b, c)) :
    ∃ a, t.graph.ordered[e]? = some a ∧ b = .int a.1 ∧ c = .int a.2 := by
  rw [ht.arcNames_eq, List.getElem?_map, Option.map_eq_some_iff] at h
  obtain ⟨a, ha, hbc⟩ := h
  cases hbc
  exact ⟨a, ha, rfl, rfl⟩

theorem length_arcNames (ht : t.toNamedNetwork.Numbered) : t.arcNames.length = t.arcCount := by
  rw [ht.arcNames_eq, List.length_map, ht.arcCount_eq]

theorem arcNames_injective (ht : t.toNamedNetwork.Numbered) {i j : Nat} {b c : Datum α}
    (hi : t.arcNames[i]? = some (b, c)) (hj : t.arcNames[j]? = some (b, c)) : i = j := by
  obtain ⟨a, ha, rfl, rfl⟩ := exists_of_getElem?_arcNames ht hi
  have hj := (getElem?_arcNames_iff ht).1 hj
  have hlt : i < t.graph.ordered.length := (List.getElem?_eq_some_iff.1 ha).1
  exact (List.getElem?_inj hlt ht.proper.nodup_ordered).1 (ha.trans hj.symm)

/-- The arcs that can be charged are found by their numbers. -/
theorem getElem?_tolledArcs (ht : t.Numbered) (i : Nat) :
    t.tolledArcs[i]? = t.tolled[i]?.bind fun e => t.arcNames[e]? := by
  have hname : ∀ e ∈ t.tolled, ∃ name, t.arcNames[e]? = some name := by
    intro e he
    refine ⟨_, List.getElem?_eq_getElem ?_⟩
    rw [ht.network.arcNames_eq, List.length_map]
    exact ht.tolled_lt e he
  rw [tolledArcs]
  generalize t.tolled = tolled at hname
  induction tolled generalizing i with
  | nil => rfl
  | cons e tolled ih =>
    obtain ⟨name, he⟩ := hname e List.mem_cons_self
    rw [List.filterMap_cons_some he]
    cases i with
    | zero => exact he.symm
    | succ i => exact ih i fun k hk => hname k (List.mem_cons_of_mem e hk)

variable [Scalar α]

theorem same_int (m n : Int) : (Datum.int m : Datum α).same (.int n) = decide (m = n) := by
  simp [Datum.same, Datum.whole?, eq_comm]

theorem arcNumber_int (ht : t.toNamedNetwork.Numbered) (u v : Int) :
    t.arcNumber (.int u) (.int v) =
      match t.graph.ordered.findIdx? fun a => decide ((a.1 : Int) = u ∧ (a.2 : Int) = v) with
      | some e => .ok e
      | none => .error .unknownArc := by
  have hnodes : (mayBeNode (.int u : Datum α) && mayBeNode (.int v : Datum α)) = true := rfl
  have hsame : ∀ a : Nat × Nat, ((Datum.int u : Datum α).same (.int a.1) &&
      (Datum.int v : Datum α).same (.int a.2)) = decide ((a.1 : Int) = u ∧ (a.2 : Int) = v) := by
    intro a
    rw [same_int, same_int]
    simp [eq_comm]
  rw [arcNumber, if_pos hnodes, ht.arcNames_eq, List.findIdx?_map]
  simp only [Function.comp_def, hsame]
  rfl

theorem arcNumber_eq_ok_iff (ht : t.toNamedNetwork.Numbered) :
    t.arcNumber (.int u) (.int v) = .ok e ↔ t.arcNames[e]? = some (.int u, .int v) := by
  rw [arcNumber_int ht]
  constructor
  · intro h
    cases hfind : t.graph.ordered.findIdx? fun a => decide ((a.1 : Int) = u ∧ (a.2 : Int) = v) with
    | none =>
      rw [hfind] at h
      cases h
    | some i =>
      rw [hfind] at h
      cases h
      obtain ⟨hlt, hends, -⟩ := List.findIdx?_eq_some_iff_getElem.1 hfind
      obtain ⟨rfl, rfl⟩ := of_decide_eq_true hends
      exact (getElem?_arcNames_iff ht).2 (List.getElem?_eq_getElem hlt)
  · intro h
    obtain ⟨a, ha, hu, hv⟩ := exists_of_getElem?_arcNames ht h
    cases hu
    cases hv
    obtain ⟨hlt, hget⟩ := List.getElem?_eq_some_iff.1 ha
    have hfind : t.graph.ordered.findIdx?
        (fun b => decide ((b.1 : Int) = a.1 ∧ (b.2 : Int) = a.2)) = some e := by
      refine List.findIdx?_eq_some_iff_getElem.2 ⟨hlt, by rw [hget]; simp, fun j hj hja => ?_⟩
      obtain ⟨h1, h2⟩ := of_decide_eq_true hja
      have hsame : t.graph.ordered[j] = t.graph.ordered[e] :=
        (Prod.ext (Int.natCast_inj.1 h1) (Int.natCast_inj.1 h2)).trans hget.symm
      exact absurd (ht.proper.nodup_ordered.getElem_inj_iff.1 hsame) (by omega)
    rw [hfind]

theorem arcNumber_of_notMem (ht : t.toNamedNetwork.Numbered)
    (h : (.int u, .int v) ∉ t.arcNames) :
    t.arcNumber (.int u) (.int v) = .error .unknownArc := by
  cases hrun : t.arcNumber (.int u) (.int v) with
  | ok e => exact absurd (List.mem_of_getElem? ((arcNumber_eq_ok_iff ht).1 hrun)) h
  | error f =>
    rw [arcNumber_int ht] at hrun
    split at hrun
    · cases hrun
    · exact hrun.symm

/-! ## The numbers along a list of nodes -/

theorem exists_mapM_arcNumber (ht : t.toNamedNetwork.Numbered) {steps : List (Int × Int)}
    (h : ∀ a ∈ steps, (.int a.1, .int a.2) ∈ t.arcNames) :
    ∃ numbers, (steps.map fun a => ((.int a.1, .int a.2) : Datum α × Datum α)).mapM
        (fun (u, v) => t.arcNumber u v) = .ok numbers ∧
      ∀ e, e ∈ numbers ↔ ∃ a ∈ steps, t.arcNames[e]? = some (.int a.1, .int a.2) := by
  induction steps with
  | nil => exact ⟨[], rfl, fun e => by simp⟩
  | cons a steps ih =>
    obtain ⟨numbers, hrun, hmem⟩ := ih fun b hb => h b (List.mem_cons_of_mem a hb)
    obtain ⟨i, hi⟩ := List.mem_iff_getElem?.1 (h a List.mem_cons_self)
    refine ⟨i :: numbers, ?_, fun e => ?_⟩
    · rw [List.map_cons, List.mapM_cons, hrun]
      simp only [(arcNumber_eq_ok_iff ht).2 hi]
      rfl
    · rw [List.mem_cons, List.exists_mem_cons_iff, hmem]
      refine or_congr_left ⟨fun he => by rw [he, hi], fun he => arcNames_injective ht he hi⟩

theorem mapM_arcNumber_of_notMem (ht : t.toNamedNetwork.Numbered) {steps : List (Int × Int)}
    (h : ∃ a ∈ steps, (.int a.1, .int a.2) ∉ t.arcNames) :
    (steps.map fun a => ((.int a.1, .int a.2) : Datum α × Datum α)).mapM
      (fun (u, v) => t.arcNumber u v) = .error .unknownArc := by
  induction steps with
  | nil =>
    obtain ⟨a, ha, -⟩ := h
    cases ha
  | cons a steps ih =>
    by_cases hfirst : (.int a.1, .int a.2) ∈ t.arcNames
    · obtain ⟨i, hi⟩ := List.mem_iff_getElem?.1 hfirst
      have hrest : ∃ a ∈ steps, (.int a.1, .int a.2) ∉ t.arcNames := by
        obtain ⟨b, hb, hnot⟩ := h
        rcases List.mem_cons.1 hb with rfl | hb
        · exact absurd hfirst hnot
        · exact ⟨b, hb, hnot⟩
      rw [List.map_cons, List.mapM_cons, ih hrest]
      simp only [(arcNumber_eq_ok_iff ht).2 hi]
      rfl
    · rw [List.map_cons, List.mapM_cons]
      simp only [arcNumber_of_notMem ht hfirst]
      rfl

/-! ## The flow along a list of nodes -/

theorem getElem?_flowOn (t : TollNetwork α) (numbers : List Nat) (h : e < t.arcCount) :
    (t.flowOn numbers)[e]? = some (if e ∈ numbers then Scalar.one else Scalar.zero) := by
  rw [flowOn, getElem?_foldl_set, List.getElem?_replicate_of_lt h]
  split
  · rfl
  · rfl

theorem length_flowOn (t : TollNetwork α) (numbers : List Nat) :
    (t.flowOn numbers).length = t.arcCount := by
  have hkeeps : ∀ y : Row α,
      (numbers.foldl (fun y e => y.set e Scalar.one) y).length = y.length := by
    induction numbers with
    | nil => exact fun y => rfl
    | cons e numbers ih => exact fun y => (ih (y.set e Scalar.one)).trans List.length_set
  exact (hkeeps _).trans List.length_replicate

theorem pathToFlow_ints (t : TollNetwork α) (path : List Int) :
    t.pathToFlow (.list (path.map .int)) =
      (do return t.flowOn (← ((stepsOf path).map fun a =>
        ((.int a.1, .int a.2) : Datum α × Datum α)).mapM fun (u, v) => t.arcNumber u v)) := by
  rw [pathToFlow, stepsOf, pathNodes]
  simp only [pure_bind]
  rw [← List.map_tail, List.zip_map]
  rfl

/-- A list of nodes that follows the arcs becomes a flow with a one on each of them. -/
theorem pathToFlow_of_arcs (ht : t.toNamedNetwork.Numbered) {path : List Int}
    (h : ∀ a ∈ stepsOf path, (.int a.1, .int a.2) ∈ t.arcNames) :
    ∃ y, t.pathToFlow (.list (path.map .int)) = .ok y ∧ y.length = t.arcCount ∧
      ∀ (e : Nat) (u v : Int), t.arcNames[e]? = some (.int u, .int v) →
        y[e]? = some (if (u, v) ∈ stepsOf path then Scalar.one else Scalar.zero) := by
  obtain ⟨numbers, hrun, hmem⟩ := exists_mapM_arcNumber ht h
  refine ⟨t.flowOn numbers, ?_, length_flowOn t numbers, fun e u v he => ?_⟩
  · rw [pathToFlow_ints, hrun]
    rfl
  · have hlt : e < t.arcCount := by
      rw [← length_arcNames ht]
      exact (List.getElem?_eq_some_iff.1 he).1
    have hiff : e ∈ numbers ↔ (u, v) ∈ stepsOf path := by
      rw [hmem]
      constructor
      · rintro ⟨a, ha, hname⟩
        rw [he] at hname
        cases hname
        exact ha
      · exact fun hstep => ⟨(u, v), hstep, he⟩
    rw [getElem?_flowOn t numbers hlt]
    simp only [hiff]

theorem pathToFlow_of_walk (ht : t.toNamedNetwork.Numbered) {path : List Nat}
    (hpath : ∀ a ∈ arcsOf path, a ∈ t.graph.ordered) :
    ∃ y, t.pathToFlow (.list (path.map fun (v : Nat) => .int v)) = .ok y ∧
      y.length = t.arcCount ∧ ∀ (e : Nat) (a : Nat × Nat), t.graph.ordered[e]? = some a →
        y[e]? = some (if a ∈ arcsOf path then Scalar.one else Scalar.zero) := by
  have hsteps : ∀ a ∈ stepsOf (path.map fun (v : Nat) => (v : Int)),
      ((.int a.1, .int a.2) : Datum α × Datum α) ∈ t.arcNames := by
    rw [stepsOf_natCast]
    intro a ha
    obtain ⟨b, hb, rfl⟩ := List.mem_map.1 ha
    obtain ⟨e, he⟩ := List.mem_iff_getElem?.1 (hpath b hb)
    exact List.mem_of_getElem? ((getElem?_arcNames_iff ht).2 he)
  obtain ⟨y, hrun, hlength, hentry⟩ := pathToFlow_of_arcs ht hsteps
  rw [List.map_map] at hrun
  refine ⟨y, hrun, hlength, fun e a ha => ?_⟩
  rw [hentry e a.1 a.2 ((getElem?_arcNames_iff ht).2 ha)]
  simp only [natCast_mem_stepsOf]

theorem pathToFlow_of_unknown (ht : t.toNamedNetwork.Numbered) {path : List Int}
    (h : ∃ a ∈ stepsOf path, (.int a.1, .int a.2) ∉ t.arcNames) :
    t.pathToFlow (.list (path.map .int)) = .error .unknownArc := by
  rw [pathToFlow_ints, mapM_arcNumber_of_notMem ht h]
  rfl

end TollNetwork
end Bilevel
