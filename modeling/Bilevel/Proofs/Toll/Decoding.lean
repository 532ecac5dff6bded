import Bilevel.Proofs.Toll.Encoding
import Bilevel.Scalar.Extended
import Mathlib

/-!
# Bilevel.Proofs.Toll.Decoding

Reading a path back from its flow.

* `Follows t y u w q`: from the node `u` there is at each node of `q` but the last just one arc on which
  `y` is one, which leads to the next node; at the last, `w`, there is none.
* `Follows.deterministic`: there is at most one way to follow a flow.
* `follows_of_leads`: the flow of a path without repeated nodes is followed along this path.
* `follows_flow_iff` puts this together for settings from any draws.
-/

namespace Bilevel

namespace TollNetwork

variable {α : Type} [Scalar α] {t : TollNetwork α} {y : Row α}

/-- Following a flow arc by arc, as the arcs are written by their numbers. -/
inductive Follows (t : TollNetwork α) (y : Row α) : Nat → Nat → List Nat → Prop where
  | stop {u : Nat} (hnone : ∀ (e : Nat) (b : Datum α), t.arcNames[e]? = some (.int u, b) →
      y[e]? ≠ some Scalar.one) : Follows t y u u [u]
  | step {u v w e : Nat} {path : List Nat} (hname : t.arcNames[e]? = some (.int u, .int v))
      (hone : y[e]? = some Scalar.one)
      (honly : ∀ (e' : Nat) (b : Datum α), t.arcNames[e']? = some (.int u, b) →
        y[e']? = some Scalar.one → e' = e)
      (hrest : Follows t y v w path) : Follows t y u w (u :: path)

theorem Follows.deterministic {u w w' : Nat} {p p' : List Nat} (h : t.Follows y u w p)
    (h' : t.Follows y u w' p') : w = w' ∧ p = p' := by
  induction h generalizing w' p' with
  | stop hnone =>
    cases h' with
    | stop _ => exact ⟨rfl, rfl⟩
    | step hname hone _ _ => exact absurd hone (hnone _ _ hname)
  | step hname hone honly _ ih =>
    cases h' with
    | stop hnone => exact absurd hone (hnone _ _ hname)
    | step hname' hone' _ hrest' =>
      have he := honly _ _ hname' hone'
      subst he
      rw [hname] at hname'
      cases hname'
      obtain ⟨rfl, rfl⟩ := ih hrest'
      exact ⟨rfl, rfl⟩

/-- A path without repeated nodes is followed by every row that, at the nodes of the path, is one on
its arcs alone. -/
theorem follows_of_leads (ht : t.toNamedNetwork.Numbered) {u w : Nat} {p : List Nat}
    (hp : t.graph.Leads u w p) (hnodup : p.Nodup)
    (hy : ∀ (e : Nat) (a : Nat × Nat), t.graph.ordered[e]? = some a → a.1 ∈ p →
      (y[e]? = some Scalar.one ↔ a ∈ arcsOf p)) : t.Follows y u w p := by
  induction hp with
  | refl u =>
    refine .stop fun e b he hone => ?_
    obtain ⟨a, ha, hu, -⟩ := exists_of_getElem?_arcNames ht he
    have hau : a.1 = u := by
      cases hu
      rfl
    have hmem := (hy e a ha (hau ▸ List.mem_cons_self)).1 hone
    cases hmem
  | @cons u v w p hstep hp ih =>
    obtain ⟨p', rfl⟩ := hp.exists_cons
    obtain ⟨hu, hnodup⟩ := List.nodup_cons.1 hnodup
    obtain ⟨e, he⟩ := List.mem_iff_getElem?.1 (Digraph.mem_ordered.2 hstep)
    -- of the arcs of the whole path only the first one leaves the first node
    have hfirst : ∀ a, a ∈ arcsOf (v :: p') → a.1 ≠ u := by
      intro a ha hau
      exact hu (hau ▸ (List.of_mem_zip (show (a.1, a.2) ∈ (v :: p').zip p' from ha)).1)
    refine .step ((getElem?_arcNames_iff ht).2 he) ?_ (fun e' b hname hone => ?_)
      (ih hnodup fun e' a ha hmem => ?_)
    · exact (hy e (u, v) he List.mem_cons_self).2 List.mem_cons_self
    · obtain ⟨a, ha, hau, -⟩ := exists_of_getElem?_arcNames ht hname
      have hau : a.1 = u := by
        cases hau
        rfl
      have harc := (hy e' a ha (hau ▸ List.mem_cons_self)).1 hone
      rw [arcsOf_cons_cons] at harc
      rcases List.mem_cons.1 harc with rfl | harc
      · exact arcNames_injective ht ((getElem?_arcNames_iff ht).2 ha) ((getElem?_arcNames_iff ht).2 he)
      · exact absurd hau (hfirst a harc)
    · rw [hy e' a ha (List.mem_cons_of_mem u hmem), arcsOf_cons_cons, List.mem_cons]
      exact or_iff_right fun h => hu (by rw [h] at hmem; exact hmem)

/-- A path without repeated nodes has a flow, along which it is found again. -/
theorem exists_follows (hone : (Scalar.one : α) ≠ Scalar.zero) (ht : t.toNamedNetwork.Numbered)
    {u w : Nat} {path : List Nat} (hpath : t.graph.Leads u w path) (hnodup : path.Nodup) :
    ∃ y, t.pathToFlow (.list (path.map fun (v : Nat) => .int v)) = .ok y ∧
      t.Follows y u w path := by
  obtain ⟨y, hrun, -, hentry⟩ := pathToFlow_of_walk ht fun _ ha => hpath.mem_ordered ha
  refine ⟨y, hrun, follows_of_leads ht hpath hnodup fun e a ha _ => ?_⟩
  rw [hentry e a ha]
  by_cases hmem : a ∈ arcsOf path
  · simp [hmem]
  · simp [hmem, Ne.symm hone]

end TollNetwork

namespace TollRequest

variable {α σ : Type} [Scalar α] {g : Sampling.Generator σ} {state : σ} {r : TollRequest α}
  {origin : Network.Origin α} {G : Graph}

/-- **Routes.** Between any two nodes, and so from the start to the finish, a path that repeats no node
is all that can be followed in its flow, and no other such path from its first node has this flow. -/
theorem follows_flow_iff (hone : (Scalar.one : α) ≠ Scalar.zero)
    (hbase : Network.base origin r.n r.k = .ok (.ofGraph G)) {s : TollSetting α}
    (hs : (r.generateFrom g state origin).2 = .ok s) {u w : Nat} {path : List Nat}
    (hpath : s.network.graph.Leads u w path) (hnodup : path.Nodup) :
    (∃ y, s.network.pathToFlow (.list (path.map fun (v : Nat) => .int v)) = .ok y ∧
      ∀ (w' : Nat) (q : List Nat), s.network.Follows y u w' q ↔ w' = w ∧ q = path) ∧
    ∀ (w' : Nat) (other : List Nat), s.network.graph.Leads u w' other → other.Nodup →
      s.network.pathToFlow (.list (other.map fun (v : Nat) => .int v)) =
        s.network.pathToFlow (.list (path.map fun (v : Nat) => .int v)) → other = path := by
  obtain ⟨ht, -, -, -⟩ := numbered_of_generateFrom hbase hs
  obtain ⟨y, hrun, hfollows⟩ := TollNetwork.exists_follows hone ht.network hpath hnodup
  refine ⟨⟨y, hrun, fun w' q => ⟨fun h => h.deterministic hfollows, ?_⟩⟩,
    fun w' other hother hnodup' heq => ?_⟩
  · rintro ⟨rfl, rfl⟩
    exact hfollows
  · obtain ⟨z, hrun', hfollows'⟩ := TollNetwork.exists_follows hone ht.network hother hnodup'
    rw [hrun, hrun'] at heq
    cases heq
    exact (hfollows'.deterministic hfollows).2

theorem ordered_triangle :
    (((triangle 5).generate allJoined).2.map fun s =>
      (s.network.finish, s.network.graph.ordered)) = .ok (2, [(0, 1), (0, 2), (1, 2)]) := by
  cbv

/-- Of the two paths from the start to the finish, the longer one. -/
theorem follows_flow_triangle :
    ∃ s, ((triangle 5).generate allJoined).2 = .ok s ∧ Network.start = 0 ∧ s.network.finish = 2 ∧
      s.network.graph.Leads 0 2 [0, 1, 2] ∧ s.network.graph.Leads 0 2 [0, 2] ∧
      (∃ y, s.network.pathToFlow (.list ([0, 1, 2].map fun (v : Nat) => .int v)) = .ok y ∧
        ∀ (w' : Nat) (q : List Nat), s.network.Follows y 0 w' q ↔ w' = 2 ∧ q = [0, 1, 2]) ∧
      s.network.pathToFlow (.list ([0, 2].map fun (v : Nat) => .int v)) ≠
        s.network.pathToFlow (.list ([0, 1, 2].map fun (v : Nat) => .int v)) := by
  obtain ⟨s, hs, hdrawn⟩ := exists_of_map ordered_triangle
  obtain ⟨hfinish, hordered⟩ := Prod.mk.inj hdrawn
  have hstep : ∀ a ∈ [(0, 1), (0, 2), (1, 2)], a.2 ∈ s.network.graph.successors a.1 := by
    intro a ha
    exact Digraph.mem_ordered.1 (hordered ▸ ha)
  have hlong : s.network.graph.Leads 0 2 [0, 1, 2] :=
    .cons (hstep (0, 1) (by decide)) (.cons (hstep (1, 2) (by decide)) (.refl 2))
  have hshort : s.network.graph.Leads 0 2 [0, 2] := .cons (hstep (0, 2) (by decide)) (.refl 2)
  have hone : (Scalar.one : Extended) ≠ Scalar.zero := by decide
  obtain ⟨hfollows, hother⟩ :=
    follows_flow_iff hone (base_triangle 5).1 hs hlong (by decide)
  refine ⟨s, hs, rfl, hfinish, hlong, hshort, hfollows, fun heq => ?_⟩
  exact absurd (hother 2 [0, 2] hshort (by decide) heq) (by decide)

end TollRequest
end Bilevel
