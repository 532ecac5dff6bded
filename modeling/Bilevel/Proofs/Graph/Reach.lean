import Bilevel.Graph.Reach
import Mathlib.Data.List.Count
import Mathlib.Data.List.Nodup
import Mathlib.Logic.Relation

/-!
# Bilevel.Proofs.Graph.Reach

The search finds exactly the nodes that can be reached.

* `found_foldl_visit`, `mem_stack_foldl_visit`, `measure_foldl_visit`: what looking at the next nodes
  of a node changes. The nodes that wait and those that are not found yet are as many as before, so
  that every round makes one less.
* `mem_reached_iff`: the nodes that are found are those to which steps lead.
-/

namespace Bilevel
namespace Graph

variable {next : Nat → List Nat} {s : Search} {u v w n start fuel : Nat}

namespace Search

def Found (s : Search) (v : Nat) : Prop :=
  s.2.getD v false = true

/-- The number of nodes that still come up: those that wait and those that are not found. -/
def left (s : Search) : Nat :=
  s.1.length + s.2.toList.count false

theorem found_iff : s.Found v ↔ s.2[v]? = some true := by
  unfold Found
  rw [Array.getD_eq_getD_getElem?]
  cases h : s.2[v]? with
  | none => exact iff_of_false (fun h => by cases h) fun h => by cases h
  | some b =>
    rw [Option.getD_some, Option.some.injEq]

theorem visit_of_found (h : s.Found v) : visit s v = s := by
  rw [visit, if_pos]
  rw [Array.getD_eq_getD_getElem?, found_iff.1 h]
  rfl

theorem visit_of_not_lt (h : ¬v < s.2.size) : visit s v = s := by
  rw [visit, if_pos]
  rw [Array.getD_eq_getD_getElem?, Array.getElem?_eq_none (by omega)]
  rfl

theorem getElem?_of_not_found (hv : v < s.2.size) (h : ¬s.Found v) : s.2[v]? = some false := by
  have hget : s.2[v]? = some s.2[v] := Array.getElem?_eq_getElem hv
  cases hb : s.2[v] with
  | false => rw [hget, hb]
  | true =>
    rw [hb] at hget
    exact absurd (found_iff.2 hget) h

theorem visit_of_not_found (hv : v < s.2.size) (h : ¬s.Found v) :
    visit s v = (v :: s.1, s.2.setIfInBounds v true) := by
  rw [visit, if_neg]
  rw [Array.getD_eq_getD_getElem?, getElem?_of_not_found hv h]
  exact Bool.false_ne_true

theorem size_visit (s : Search) (v : Nat) : (visit s v).2.size = s.2.size := by
  unfold visit
  split
  · rfl
  · exact Array.size_setIfInBounds

theorem found_visit : (visit s v).Found w ↔ s.Found w ∨ (w = v ∧ v < s.2.size) := by
  by_cases hv : v < s.2.size
  · by_cases h : s.Found v
    · rw [visit_of_found h]
      constructor
      · exact Or.inl
      · rintro (hw | ⟨rfl, -⟩)
        · exact hw
        · exact h
    · rw [visit_of_not_found hv h, found_iff, found_iff, Array.getElem?_setIfInBounds]
      by_cases hw : v = w
      · rw [if_pos hw, if_pos (hw ▸ hv)]
        exact iff_of_true rfl (.inr ⟨hw.symm, hv⟩)
      · rw [if_neg hw]
        exact ⟨Or.inl, fun h => h.resolve_right fun h => hw h.1.symm⟩
  · rw [visit_of_not_lt hv]
    exact ⟨Or.inl, fun h => h.resolve_right fun h => hv h.2⟩

theorem mem_stack_visit :
    w ∈ (visit s v).1 ↔ w ∈ s.1 ∨ (w = v ∧ v < s.2.size ∧ ¬s.Found v) := by
  by_cases hv : v < s.2.size
  · by_cases h : s.Found v
    · rw [visit_of_found h]
      exact ⟨Or.inl, fun hw => hw.resolve_right fun hw => hw.2.2 h⟩
    · rw [visit_of_not_found hv h, List.mem_cons, or_comm]
      exact or_congr_right ⟨fun hw => ⟨hw, hv, h⟩, fun hw => hw.1⟩
  · rw [visit_of_not_lt hv]
    exact ⟨Or.inl, fun h => h.resolve_right fun h => hv h.2.1⟩

theorem left_visit (s : Search) (v : Nat) : (visit s v).left = s.left := by
  by_cases hv : v < s.2.size
  · by_cases h : s.Found v
    · rw [visit_of_found h]
    · have hget := getElem?_of_not_found hv h
      have hlen : v < s.2.toList.length := hv
      have hcell : s.2.toList[v] = false := by
        rw [← Array.getElem?_toList, List.getElem?_eq_getElem hlen] at hget
        exact Option.some.inj hget
      have hpos : 0 < s.2.toList.count false :=
        List.count_pos_iff.2 (hcell ▸ List.getElem_mem hlen)
      rw [visit_of_not_found hv h, left, left, Array.toList_setIfInBounds, List.count_set hlen,
        hcell]
      simp only [List.length_cons, beq_self_eq_true, if_true, beq_iff_eq, reduceCtorEq, if_false]
      omega
  · rw [visit_of_not_lt hv]

theorem size_foldl_visit (vs : List Nat) (s : Search) :
    (vs.foldl visit s).2.size = s.2.size := by
  induction vs generalizing s with
  | nil => rfl
  | cons v vs ih => rw [List.foldl_cons, ih, size_visit]

theorem left_foldl_visit (vs : List Nat) (s : Search) : (vs.foldl visit s).left = s.left := by
  induction vs generalizing s with
  | nil => rfl
  | cons v vs ih => rw [List.foldl_cons, ih, left_visit]

theorem found_foldl_visit (vs : List Nat) (s : Search) :
    (vs.foldl visit s).Found w ↔ s.Found w ∨ (w ∈ vs ∧ w < s.2.size) := by
  induction vs generalizing s with
  | nil => simp
  | cons v vs ih =>
    rw [List.foldl_cons, ih, found_visit, size_visit, List.mem_cons]
    constructor
    · rintro ((h | ⟨rfl, hv⟩) | ⟨hw, hlt⟩)
      · exact .inl h
      · exact .inr ⟨.inl rfl, hv⟩
      · exact .inr ⟨.inr hw, hlt⟩
    · rintro (h | ⟨rfl | hw, hlt⟩)
      · exact .inl (.inl h)
      · exact .inl (.inr ⟨rfl, hlt⟩)
      · exact .inr ⟨hw, hlt⟩

theorem mem_stack_of_foldl_visit (vs : List Nat) (s : Search) (h : w ∈ (vs.foldl visit s).1) :
    w ∈ s.1 ∨ (w ∈ vs ∧ w < s.2.size) := by
  induction vs generalizing s with
  | nil => exact .inl h
  | cons v vs ih =>
    rw [List.foldl_cons] at h
    rcases ih _ h with h | ⟨hw, hlt⟩
    · rcases mem_stack_visit.1 h with h | ⟨rfl, hlt, -⟩
      · exact .inl h
      · exact .inr ⟨List.mem_cons_self, hlt⟩
    · rw [size_visit] at hlt
      exact .inr ⟨List.mem_cons_of_mem v hw, hlt⟩

/-- What is found for the first time waits. -/
theorem mem_stack_foldl_visit (vs : List Nat) (s : Search)
    (h : w ∈ s.1 ∨ ((vs.foldl visit s).Found w ∧ ¬s.Found w)) : w ∈ (vs.foldl visit s).1 := by
  induction vs generalizing s with
  | nil => exact h.elim id fun h => absurd h.1 h.2
  | cons v vs ih =>
    rw [List.foldl_cons] at h ⊢
    refine ih _ ?_
    rcases h with h | ⟨h, hnot⟩
    · exact .inl (mem_stack_visit.2 (.inl h))
    · by_cases hw : (visit s v).Found w
      · obtain ⟨rfl, hv⟩ := (found_visit.1 hw).resolve_left hnot
        exact .inl (mem_stack_visit.2 (.inr ⟨rfl, hv, hnot⟩))
      · exact .inr ⟨h, hw⟩

end Search

open Search

/-! ## The whole search -/

/-- What holds of the found nodes and is kept by steps holds of all that come up. -/
theorem spread_induction {P : Nat → Prop} (hstep : ∀ u, P u → ∀ v ∈ next u, P v) (fuel : Nat)
    (s : Search) (hstack : ∀ v ∈ s.1, P v) (hfound : ∀ v, s.Found v → P v)
    (hv : (spread next fuel s).getD v false = true) : P v := by
  induction fuel generalizing s with
  | zero => exact hfound v hv
  | succ fuel ih =>
    obtain ⟨stack, found⟩ := s
    cases stack with
    | nil => exact hfound v hv
    | cons u rest =>
      have hu : P u := hstack u List.mem_cons_self
      refine ih ((next u).foldl visit (rest, found)) (fun w hw => ?_) (fun w hw => ?_) hv
      · rcases mem_stack_of_foldl_visit _ _ hw with hw | ⟨hw, -⟩
        · exact hstack w (List.mem_cons_of_mem u hw)
        · exact hstep u hu w hw
      · rcases (found_foldl_visit _ _).1 hw with hw | ⟨hw, -⟩
        · exact hfound w hw
        · exact hstep u hu w hw

theorem found_spread (fuel : Nat) (s : Search) (h : s.Found v) :
    (spread next fuel s).getD v false = true := by
  induction fuel generalizing s with
  | zero => exact h
  | succ fuel ih =>
    obtain ⟨stack, found⟩ := s
    cases stack with
    | nil => exact h
    | cons u rest => exact ih _ ((found_foldl_visit _ _).2 (.inl h))

/-- If every node that waits is looked at, the steps of all found nodes lead to found nodes. -/
theorem spread_closed (fuel : Nat) (s : Search) (hfuel : s.left ≤ fuel)
    (hclosed : ∀ u, s.Found u → u ∉ s.1 → ∀ v ∈ next u, v < s.2.size → s.Found v)
    (hu : (spread next fuel s).getD u false = true) (hv : v ∈ next u) (hlt : v < s.2.size) :
    (spread next fuel s).getD v false = true := by
  induction fuel generalizing s with
  | zero =>
    have hnil : s.1 = [] := List.length_eq_zero_iff.1 (by unfold left at hfuel; omega)
    exact hclosed u hu (hnil ▸ List.not_mem_nil) v hv hlt
  | succ fuel ih =>
    obtain ⟨stack, found⟩ := s
    cases stack with
    | nil => exact hclosed u hu List.not_mem_nil v hv hlt
    | cons a rest =>
      refine ih ((next a).foldl visit (rest, found)) ?_ (fun b hb hnot c hc hcn => ?_) hu ?_
      · rw [left_foldl_visit]
        have hlen : rest.length + 1 + found.toList.count false ≤ fuel + 1 := hfuel
        show rest.length + found.toList.count false ≤ fuel
        omega
      · rw [size_foldl_visit] at hcn
        refine (found_foldl_visit _ _).2 ?_
        by_cases hba : b = a
        · exact .inr ⟨hba ▸ hc, hcn⟩
        · have hold : Found (rest, found) b := by
            by_contra hnew
            exact hnot (mem_stack_foldl_visit _ _ (.inr ⟨hb, hnew⟩))
          have hwait : b ∉ a :: rest := by
            intro hmem
            rcases List.mem_cons.1 hmem with h | h
            · exact hba h
            · exact hnot (mem_stack_foldl_visit _ _ (.inl h))
          exact .inl (hclosed b hold hwait c hc hcn)
      · rw [size_foldl_visit]
        exact hlt

theorem mem_reached_iff (hnext : ∀ u, ∀ v ∈ next u, v < n) (hstart : start < n) :
    v ∈ reached next n start ↔ Relation.ReflTransGen (fun u v => v ∈ next u) start v := by
  have hnot : ¬Found (([], Array.replicate n false) : Search) start := by
    rw [found_iff, Array.getElem?_replicate]
    split
    · exact fun h => by cases h
    · exact fun h => by cases h
  have hsize : start < (([], Array.replicate n false) : Search).2.size := by
    rw [Array.size_replicate]
    exact hstart
  have hfound : ∀ w, (visit ([], Array.replicate n false) start).Found w ↔ w = start := by
    intro w
    rw [found_visit]
    constructor
    · rintro (h | h)
      · exfalso
        rw [found_iff, Array.getElem?_replicate] at h
        split at h
        · cases h
        · cases h
      · exact h.1
    · exact fun h => .inr ⟨h, hsize⟩
  have hstack : ∀ w, w ∈ (visit ([], Array.replicate n false) start).1 ↔ w = start := by
    intro w
    rw [visit_of_not_found hsize hnot, List.mem_singleton]
  unfold reached
  rw [List.mem_filter, List.mem_range]
  constructor
  · rintro ⟨-, hv⟩
    refine spread_induction (fun u hu w hw => hu.tail hw) n _ (fun w hw => ?_) (fun w hw => ?_) hv
    · rw [(hstack w).1 hw]
    · rw [(hfound w).1 hw]
  · intro hv
    have hleft : (visit ([], Array.replicate n false) start).left ≤ n := by
      rw [left_visit, left]
      simp
    have hclosed : ∀ u, (visit ([], Array.replicate n false) start).Found u →
        u ∉ (visit ([], Array.replicate n false) start).1 → ∀ v ∈ next u,
          v < (visit ([], Array.replicate n false) start).2.size →
            (visit ([], Array.replicate n false) start).Found v :=
      fun u hu hnot => absurd ((hstack u).2 ((hfound u).1 hu)) hnot
    induction hv with
    | refl => exact ⟨hstart, found_spread n _ ((hfound start).2 rfl)⟩
    | tail _ hstep ih =>
      refine ⟨hnext _ _ hstep, spread_closed n _ hleft hclosed ih.2 hstep ?_⟩
      rw [size_visit, Array.size_replicate]
      exact hnext _ _ hstep

end Graph
end Bilevel
