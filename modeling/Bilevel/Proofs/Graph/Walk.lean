import Bilevel.Graph.Directed
import Bilevel.Proofs.Graph.Links
import Mathlib.Algebra.BigOperators.Group.List.Basic
import Mathlib.Algebra.Order.BigOperators.Group.List
import Mathlib.Algebra.Order.Ring.Rat
import Mathlib.Logic.Relation

/-!
# Bilevel.Proofs.Graph.Walk

Walks: lists of nodes that follow the arcs of a graph.

* `Digraph.Leads` says that a list of nodes leads from one node to another, and `arcsOf` lists its
  arcs.
* `costOf` adds up what the arcs cost; walks can be put together (`Leads.append`), and their costs
  add up (`costOf_append_tail`).
* `exists_path`: steps along arcs lead along a path. A walk that comes back to a node is cut short.
* `sum_arcsOf`: over the arcs of a walk, differences of values at the nodes add up to the difference
  of the two ends.
-/

namespace Bilevel

/-- The arcs between the consecutive nodes of a list. -/
def arcsOf (p : List Nat) : List (Nat × Nat) :=
  p.zip p.tail

theorem arcsOf_cons_cons (u v : Nat) (p : List Nat) :
    arcsOf (u :: v :: p) = (u, v) :: arcsOf (v :: p) := rfl

/-- A list without repeated nodes has no repeated arcs. -/
theorem nodup_arcsOf {p : List Nat} (h : p.Nodup) : (arcsOf p).Nodup := by
  have hsnd : (arcsOf p).map Prod.snd = p.tail :=
    List.map_snd_zip (by rw [List.length_tail]; omega)
  refine List.Nodup.of_map Prod.snd ?_
  rw [hsnd]
  exact h.tail

/-- What the arcs of a list of nodes cost. -/
def costOf (cost : Nat × Nat → ℚ) (p : List Nat) : ℚ :=
  ((arcsOf p).map cost).sum

theorem costOf_congr {f g : Nat × Nat → ℚ} {p : List Nat} (h : ∀ a ∈ arcsOf p, f a = g a) :
    costOf f p = costOf g p :=
  congrArg List.sum (List.map_congr_left h)

theorem costOf_singleton (cost : Nat × Nat → ℚ) (u : Nat) : costOf cost [u] = 0 := rfl

theorem costOf_cons_cons (cost : Nat × Nat → ℚ) (u v : Nat) (p : List Nat) :
    costOf cost (u :: v :: p) = cost (u, v) + costOf cost (v :: p) := by
  rw [costOf, arcsOf_cons_cons, List.map_cons, List.sum_cons]
  rfl

namespace Digraph

variable {g : Digraph} {s t u v m : Nat} {p q : List Nat}

/-- A list of nodes leads along arcs from the first node to the second one. -/
inductive Leads (g : Digraph) : Nat → Nat → List Nat → Prop where
  | refl (s : Nat) : Leads g s s [s]
  | cons {s u t : Nat} {p : List Nat} (h : u ∈ g.successors s) (hp : Leads g u t p) :
      Leads g s t (s :: p)

theorem Leads.exists_cons (h : g.Leads s t p) : ∃ p', p = s :: p' := by
  cases h with
  | refl => exact ⟨[], rfl⟩
  | cons _ _ => exact ⟨_, rfl⟩

theorem Leads.append (hp : g.Leads s m p) (hq : g.Leads m t q) : g.Leads s t (p ++ q.tail) := by
  induction hp with
  | refl =>
    obtain ⟨q', rfl⟩ := hq.exists_cons
    exact hq
  | cons h _ ih => exact .cons h (ih hq)

theorem Leads.snoc (hp : g.Leads s u p) (h : v ∈ g.successors u) : g.Leads s v (p ++ [v]) :=
  hp.append (.cons h (.refl v))

theorem Leads.mem_ordered (hp : g.Leads s t p) {a : Nat × Nat} (ha : a ∈ arcsOf p) :
    a ∈ g.ordered := by
  induction hp with
  | refl => cases ha
  | cons h hp ih =>
    obtain ⟨p', rfl⟩ := hp.exists_cons
    rw [arcsOf_cons_cons] at ha
    rcases List.mem_cons.1 ha with rfl | ha
    · exact Links.mem_all.2 h
    · exact ih ha

theorem costOf_append_tail (cost : Nat × Nat → ℚ) (hp : g.Leads s m p) (hq : g.Leads m t q) :
    costOf cost (p ++ q.tail) = costOf cost p + costOf cost q := by
  induction hp with
  | refl =>
    obtain ⟨q', rfl⟩ := hq.exists_cons
    rw [costOf_singleton, zero_add]
    rfl
  | cons _ hp ih =>
    obtain ⟨p', rfl⟩ := hp.exists_cons
    rw [costOf_cons_cons, add_assoc, ← ih hq]
    exact costOf_cons_cons cost _ _ _

theorem costOf_snoc (cost : Nat × Nat → ℚ) (hp : g.Leads s u p) (h : v ∈ g.successors u) :
    costOf cost (p ++ [v]) = costOf cost p + cost (u, v) := by
  have happ := costOf_append_tail cost hp (.cons h (.refl v))
  rw [costOf_cons_cons, costOf_singleton, add_zero] at happ
  exact happ

theorem Leads.costOf_nonneg {cost : Nat × Nat → ℚ} (hcost : ∀ a ∈ g.ordered, 0 ≤ cost a)
    (hp : g.Leads s t p) : 0 ≤ costOf cost p := by
  refine List.sum_nonneg fun c hc => ?_
  obtain ⟨a, ha, rfl⟩ := List.mem_map.1 hc
  exact hcost a (hp.mem_ordered ha)

theorem exists_leads (h : Relation.ReflTransGen (fun u v => v ∈ g.successors u) s t) :
    ∃ p, g.Leads s t p := by
  induction h with
  | refl => exact ⟨[s], .refl s⟩
  | tail _ hstep ih =>
    obtain ⟨p, hp⟩ := ih
    exact ⟨_, hp.snoc hstep⟩

/-- A walk that comes through a node goes on as a walk from there. -/
theorem Leads.exists_suffix (hp : g.Leads s t p) (hu : u ∈ p) :
    ∃ q, g.Leads u t q ∧ q <:+ p ∧ arcsOf q ⊆ arcsOf p := by
  induction hp with
  | refl s =>
    rw [List.mem_singleton] at hu
    subst hu
    exact ⟨[u], .refl u, List.suffix_rfl, List.Subset.refl _⟩
  | cons h hp ih =>
    rcases List.mem_cons.1 hu with rfl | hu
    · exact ⟨_, .cons h hp, List.suffix_rfl, List.Subset.refl _⟩
    · obtain ⟨q, hq, hsuffix, hsub⟩ := ih hu
      obtain ⟨p', rfl⟩ := hp.exists_cons
      refine ⟨q, hq, hsuffix.trans (List.suffix_cons _ _), fun a ha => ?_⟩
      rw [arcsOf_cons_cons]
      exact List.mem_cons_of_mem _ (hsub ha)

/-- Steps along arcs lead along a path, which visits no node twice. -/
theorem exists_path {step : Nat → Nat → Prop} (hstep : ∀ u v, step u v → v ∈ g.successors u)
    (h : Relation.ReflTransGen step s t) :
    ∃ p, g.Leads s t p ∧ p.Nodup ∧ ∀ a ∈ arcsOf p, step a.1 a.2 := by
  induction h using Relation.ReflTransGen.head_induction_on with
  | refl => exact ⟨[t], .refl t, List.nodup_singleton t, fun a ha => by cases ha⟩
  | @head s u hs _ ih =>
    obtain ⟨p, hp, hnodup, harcs⟩ := ih
    by_cases hmem : s ∈ p
    · obtain ⟨q, hq, hsuffix, hsub⟩ := hp.exists_suffix hmem
      exact ⟨q, hq, hnodup.sublist hsuffix.sublist, fun a ha => harcs a (hsub ha)⟩
    · refine ⟨s :: p, .cons (hstep s u hs) hp, List.nodup_cons.2 ⟨hmem, hnodup⟩, fun a ha => ?_⟩
      obtain ⟨p', rfl⟩ := hp.exists_cons
      rw [arcsOf_cons_cons] at ha
      rcases List.mem_cons.1 ha with rfl | ha
      · exact hs
      · exact harcs a ha

/-- Differences along a walk add up to the difference of its ends. -/
theorem Leads.sum_arcsOf (f : Nat → ℚ) (hp : g.Leads s t p) :
    ((arcsOf p).map fun a => f a.1 - f a.2).sum = f s - f t := by
  induction hp with
  | refl s => exact (sub_self (f s)).symm
  | cons _ hp ih =>
    obtain ⟨p', rfl⟩ := hp.exists_cons
    rw [arcsOf_cons_cons, List.map_cons, List.sum_cons, ih]
    exact sub_add_sub_cancel _ _ _

end Digraph
end Bilevel
