import Bilevel.Graph.Undirected
import Mathlib.Algebra.BigOperators.Intervals
import Mathlib.Data.List.Nodup

/-!
# Bilevel.Proofs.Graph.Links

Which nodes are linked after nodes were linked and taken out.

* `mem_linked_add`, `mem_linked_remove`: only the one link comes or goes. Nothing is linked twice
  (`nodup_linked_add`).
* `mem_all`: the list of all links has each link as often as it is there, and those of smaller nodes
  come first.
-/

namespace Bilevel

theorem Links.nodup_insertLast {β : Type} [BEq β] [LawfulBEq β] {xs : List β} (h : xs.Nodup)
    (x : β) : (insertLast xs x).Nodup := by
  unfold insertLast
  split
  · exact h
  · rename_i hx
    refine List.nodup_append.2 ⟨h, List.nodup_singleton x, ?_⟩
    intro a ha b hb hab
    rw [List.mem_singleton.1 hb] at hab
    exact hx (List.contains_iff_mem.2 (hab ▸ ha))

namespace Links

variable {l : Links} {u v w x : Nat}

theorem linked_eq (l : Links) (u : Nat) : l.linked u = (l[u]?).getD [] := by
  rw [linked, Array.getD_eq_getD_getElem?]

theorem lt_size_of_mem_linked (h : x ∈ l.linked u) : u < l.size := by
  by_contra hu
  rw [linked_eq, Array.getElem?_eq_none (by omega)] at h
  cases h

theorem linked_modify (l : Links) (f : List Nat → List Nat) (hu : u < l.size) :
    linked (l.modify u f) w = if w = u then f (l.linked w) else l.linked w := by
  rw [linked_eq, linked_eq, Array.getElem?_modify]
  by_cases hw : w = u
  · rw [if_pos hw.symm, if_pos hw, hw, Array.getElem?_eq_getElem hu]
    rfl
  · rw [if_neg (Ne.symm hw), if_neg hw]

theorem linked_modify_of_not_lt (l : Links) (f : List Nat → List Nat) (hu : ¬u < l.size) :
    linked (l.modify u f) w = l.linked w := by
  rw [linked_eq, linked_eq, Array.getElem?_modify]
  by_cases hw : u = w
  · rw [if_pos hw, ← hw, Array.getElem?_eq_none (by omega)]
    rfl
  · rw [if_neg hw]

theorem mem_linked_add (hu : u < l.size) :
    x ∈ (l.add u v).linked w ↔ x ∈ l.linked w ∨ (w = u ∧ x = v) := by
  rw [add, linked_modify l _ hu]
  by_cases hw : w = u
  · rw [if_pos hw, mem_insertLast]
    exact or_congr_right ⟨fun h => ⟨hw, h⟩, fun h => h.2⟩
  · rw [if_neg hw]
    exact ⟨Or.inl, fun h => h.resolve_right fun h => hw h.1⟩

theorem mem_linked_remove :
    x ∈ (l.remove u v).linked w ↔ x ∈ l.linked w ∧ ¬(w = u ∧ x = v) := by
  unfold remove
  by_cases hu : u < l.size
  · rw [linked_modify l _ hu]
    by_cases hw : w = u
    · rw [if_pos hw, List.mem_filter, bne_iff_ne]
      exact and_congr_right fun _ => ⟨fun h hx => h hx.2, fun h hx => h ⟨hw, hx⟩⟩
    · rw [if_neg hw]
      exact ⟨fun h => ⟨h, fun hx => hw hx.1⟩, fun h => h.1⟩
  · rw [linked_modify_of_not_lt l _ hu]
    constructor
    · intro h
      exact ⟨h, fun hw => hu (hw.1 ▸ lt_size_of_mem_linked h)⟩
    · exact fun h => h.1

theorem nodup_linked_add (h : ∀ w, (l.linked w).Nodup) (u v w : Nat) :
    ((l.add u v).linked w).Nodup := by
  unfold add
  by_cases hu : u < l.size
  · rw [linked_modify l _ hu]
    split
    · exact nodup_insertLast (h w) v
    · exact h w
  · rw [linked_modify_of_not_lt l _ hu]
    exact h w

theorem nodup_linked_remove (h : ∀ w, (l.linked w).Nodup) (u v w : Nat) :
    ((l.remove u v).linked w).Nodup := by
  unfold remove
  by_cases hu : u < l.size
  · rw [linked_modify l _ hu]
    split
    · exact (h w).filter _
    · exact h w
  · rw [linked_modify_of_not_lt l _ hu]
    exact h w

theorem linked_replicate (n u : Nat) : linked (Array.replicate n []) u = [] := by
  rw [linked_eq, Array.getElem?_replicate]
  split
  · rfl
  · rfl

/-! ## All links -/

theorem mem_all : (u, v) ∈ l.all ↔ v ∈ l.linked u := by
  unfold all
  rw [List.mem_flatMap]
  constructor
  · rintro ⟨w, -, hw⟩
    obtain ⟨x, hx, he⟩ := List.mem_map.1 hw
    cases he
    exact hx
  · intro h
    exact ⟨u, List.mem_range.2 (lt_size_of_mem_linked h), List.mem_map.2 ⟨v, h, rfl⟩⟩

theorem nodup_all (h : ∀ u, (l.linked u).Nodup) : l.all.Nodup := by
  unfold all
  rw [List.nodup_flatMap]
  constructor
  · intro u _
    exact (h u).map fun a b hab => congrArg Prod.snd hab
  · refine List.nodup_range.imp ?_
    intro u w huw a ha hb
    obtain ⟨x, -, rfl⟩ := List.mem_map.1 ha
    obtain ⟨y, -, hy⟩ := List.mem_map.1 hb
    exact huw (congrArg Prod.fst hy).symm

/-- The number of links of the nodes before a node. -/
def before (l : Links) (u : Nat) : Nat :=
  ((List.range u).map fun w => (l.linked w).length).sum

theorem before_succ (l : Links) (u : Nat) :
    l.before (u + 1) = l.before u + (l.linked u).length := by
  unfold before
  rw [List.range_succ, List.map_append, List.sum_append, List.map_singleton, List.sum_singleton]

theorem before_eq_sum (l : Links) (n : Nat) :
    l.before n = ∑ u ∈ Finset.range n, (l.linked u).length := by
  induction n with
  | zero => rfl
  | succ n ih => rw [before_succ, ih, Finset.sum_range_succ]

theorem length_flatMap_range (l : Links) (n : Nat) :
    ((List.range n).flatMap fun u => (l.linked u).map (u, ·)).length = l.before n := by
  rw [List.length_flatMap, before]
  simp only [List.length_map]

theorem length_all (l : Links) : l.all.length = l.before l.size :=
  length_flatMap_range l l.size

theorem getElem?_flatMap_range {n i : Nat} (h : (l.linked u)[i]? = some v) (hn : u < n) :
    ((List.range n).flatMap fun u => (l.linked u).map (u, ·))[l.before u + i]? = some (u, v) := by
  induction n with
  | zero => omega
  | succ n ih =>
    rw [List.range_succ, List.flatMap_append, List.flatMap_singleton]
    by_cases hun : u = n
    · have hlen := length_flatMap_range l n
      rw [List.getElem?_append_right (by rw [hlen, hun]; omega), hlen, hun,
        Nat.add_sub_cancel_left, List.getElem?_map, ← hun, h]
      rfl
    · have hget := ih (by omega)
      rw [List.getElem?_append_left (List.getElem?_eq_some_iff.1 hget).1]
      exact hget

/-- A link stands behind those of the nodes before its own. -/
theorem getElem?_all {i : Nat} (h : (l.linked u)[i]? = some v) :
    l.all[l.before u + i]? = some (u, v) :=
  getElem?_flatMap_range h (lt_size_of_mem_linked (List.mem_of_getElem? h))

end Links
end Bilevel
