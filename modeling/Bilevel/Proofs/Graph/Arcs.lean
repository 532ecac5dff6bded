import Bilevel.Graph.Network
import Bilevel.Proofs.Graph.Links
import Bilevel.Proofs.Graph.Reach
import Mathlib.Data.Finset.Card
import Mathlib.Data.List.Perm.Lattice

/-!
# Bilevel.Proofs.Graph.Arcs

The arcs of directed graphs.

* `Digraph.Proper` is what holds of every graph that is built by adding and removing arcs.
* `getElem?_numberFrom`: arcs are numbered in their order.
* `mem_orient`, `mem_openSource`: which arcs an orientation has, and which are left when the source
  is opened. Opening turns arcs round and loses none (`length_openSource`).
-/

namespace Bilevel
namespace Digraph

variable {g : Digraph} {u v w s n : Nat} {a b : Nat × Nat}

/-- Every arc is entered once on both of its ends. -/
structure Proper (g : Digraph) : Prop where
  size_entering : g.entering.size = g.size
  mem_iff : ∀ u v, u ∈ g.predecessors v ↔ v ∈ g.successors u
  nodup_successors : ∀ u, (g.successors u).Nodup
  nodup_predecessors : ∀ v, (g.predecessors v).Nodup

theorem mem_ordered : (u, v) ∈ g.ordered ↔ v ∈ g.successors u :=
  Links.mem_all

theorem lt_size_of_mem (h : v ∈ g.successors u) : u < g.size :=
  Links.lt_size_of_mem_linked h

theorem Proper.lt_size_of_mem (hg : g.Proper) (h : v ∈ g.successors u) : v < g.size := by
  have hlt := Links.lt_size_of_mem_linked ((hg.mem_iff u v).2 h)
  rw [hg.size_entering] at hlt
  exact hlt

theorem Proper.nodup_ordered (hg : g.Proper) : g.ordered.Nodup :=
  Links.nodup_all hg.nodup_successors

/-! ## Adding and removing -/

theorem size_discrete (n : Nat) : (discrete n).size = n :=
  Array.size_replicate

theorem not_mem_ordered_discrete (n : Nat) : a ∉ (discrete n).ordered := by
  intro h
  have hlinked := mem_ordered.1 h
  rw [successors, discrete, Links.linked_replicate] at hlinked
  cases hlinked

theorem proper_discrete (n : Nat) : (discrete n).Proper where
  size_entering := Array.size_replicate.trans Array.size_replicate.symm
  mem_iff := by
    intro u v
    rw [predecessors, successors, discrete, Links.linked_replicate, Links.linked_replicate]
    exact iff_of_false List.not_mem_nil List.not_mem_nil
  nodup_successors := by
    intro u
    rw [successors, discrete, Links.linked_replicate]
    exact List.nodup_nil
  nodup_predecessors := by
    intro u
    rw [predecessors, discrete, Links.linked_replicate]
    exact List.nodup_nil

theorem mem_ordered_addArc (ha : a.1 < g.size) : b ∈ (g.addArc a).ordered ↔ b ∈ g.ordered ∨ b = a := by
  obtain ⟨u, v⟩ := a
  obtain ⟨x, y⟩ := b
  rw [mem_ordered, mem_ordered, Prod.mk.injEq]
  exact Links.mem_linked_add ha

theorem mem_ordered_removeArc : b ∈ (g.removeArc a).ordered ↔ b ∈ g.ordered ∧ b ≠ a := by
  obtain ⟨u, v⟩ := a
  obtain ⟨x, y⟩ := b
  rw [mem_ordered, mem_ordered, ne_eq, Prod.mk.injEq]
  exact Links.mem_linked_remove

theorem Proper.addArc (hg : g.Proper) (h1 : a.1 < g.size) (h2 : a.2 < g.size) :
    (g.addArc a).Proper where
  size_entering := by
    rw [size_addArc, ← hg.size_entering]
    exact Links.size_add _ _ _
  mem_iff := by
    intro x y
    have hpred : x ∈ (g.addArc a).predecessors y ↔ x ∈ g.predecessors y ∨ (y = a.2 ∧ x = a.1) :=
      Links.mem_linked_add (hg.size_entering ▸ h2)
    have hsucc : y ∈ (g.addArc a).successors x ↔ y ∈ g.successors x ∨ (x = a.1 ∧ y = a.2) :=
      Links.mem_linked_add h1
    rw [hpred, hsucc, hg.mem_iff]
    exact or_congr_right and_comm
  nodup_successors := Links.nodup_linked_add hg.nodup_successors a.1 a.2
  nodup_predecessors := Links.nodup_linked_add hg.nodup_predecessors a.2 a.1

theorem Proper.removeArc (hg : g.Proper) (a : Nat × Nat) : (g.removeArc a).Proper where
  size_entering := by
    rw [size_removeArc, ← hg.size_entering]
    exact Links.size_remove _ _ _
  mem_iff := by
    intro x y
    have hpred : x ∈ (g.removeArc a).predecessors y ↔
        x ∈ g.predecessors y ∧ ¬(y = a.2 ∧ x = a.1) := Links.mem_linked_remove
    have hsucc : y ∈ (g.removeArc a).successors x ↔
        y ∈ g.successors x ∧ ¬(x = a.1 ∧ y = a.2) := Links.mem_linked_remove
    rw [hpred, hsucc, hg.mem_iff]
    exact and_congr_right fun _ => not_congr and_comm
  nodup_successors := Links.nodup_linked_remove hg.nodup_successors a.1 a.2
  nodup_predecessors := Links.nodup_linked_remove hg.nodup_predecessors a.2 a.1

/-! ## Numbers -/

theorem firsts_spec (g : Digraph) (n : Nat) (hn : n ≤ g.size) :
    let r := (g.leaving.toList.take n).foldl
      (fun (counts, n) heads => (counts.push n, n + heads.length)) ((#[] : Array Nat), 0)
    r.1.size = n ∧ r.2 = g.leaving.before n ∧ ∀ u < n, r.1[u]? = some (g.leaving.before u) := by
  induction n with
  | zero => exact ⟨rfl, rfl, fun u hu => absurd hu (Nat.not_lt_zero u)⟩
  | succ n ih =>
    obtain ⟨hsize, hcount, hget⟩ := ih (by omega)
    have hlt : n < g.leaving.toList.length := hn
    have hlinked : g.leaving.toList[n] = g.leaving.linked n := by
      rw [Links.linked_eq, Array.getElem?_eq_getElem hn]
      rfl
    rw [List.take_succ_eq_append_getElem hlt, List.foldl_append]
    refine ⟨?_, ?_, ?_⟩
    · exact (Array.size_push _).trans (congrArg (· + 1) hsize)
    · rw [Links.before_succ, ← hcount, ← hlinked]
      rfl
    · intro u hu
      show (Array.push _ _)[u]? = _
      rw [Array.getElem?_push, hsize]
      by_cases hun : u = n
      · rw [if_pos hun, hun, ← hcount]
      · rw [if_neg hun]
        exact hget u (by omega)

theorem getD_firsts (hu : u < g.size) : g.firsts.getD u 0 = g.leaving.before u := by
  obtain ⟨-, -, hget⟩ := firsts_spec g g.size le_rfl
  have htake : g.leaving.toList.take g.size = g.leaving.toList :=
    List.take_of_length_le le_rfl
  have hfirsts : g.firsts[u]? = some (g.leaving.before u) := by
    rw [← hget u hu, htake, firsts, ← Array.foldl_toList]
  rw [Array.getD_eq_getD_getElem?, hfirsts]
  rfl

/-- The arc with the number of an arc is the arc itself. -/
theorem getElem?_numberFrom (h : a ∈ g.ordered) :
    g.ordered[g.numberFrom g.firsts a]? = some a := by
  obtain ⟨u, v⟩ := a
  have hv : v ∈ g.successors u := mem_ordered.1 h
  have hget : (g.successors u)[(g.successors u).idxOf v]? = some v :=
    List.getElem?_eq_some_iff.2 ⟨List.idxOf_lt_length_iff.2 hv, List.getElem_idxOf _⟩
  rw [numberFrom, getD_firsts (lt_size_of_mem hv)]
  exact Links.getElem?_all hget

theorem Proper.numberFrom_eq (hg : g.Proper) {i : Nat} (h : g.ordered[i]? = some a) :
    g.numberFrom g.firsts a = i := by
  have hget := getElem?_numberFrom (List.mem_of_getElem? h)
  exact (List.getElem?_inj (List.getElem?_eq_some_iff.1 hget).1 hg.nodup_ordered).1 (hget.trans h.symm)

/-! ## Orientations -/

theorem size_foldl_addArc (as : List (Nat × Nat)) (g : Digraph) :
    (as.foldl addArc g).size = g.size := by
  induction as generalizing g with
  | nil => rfl
  | cons a as ih => rw [List.foldl_cons, ih, size_addArc]

theorem Proper.foldl_addArc (hg : g.Proper) {as : List (Nat × Nat)}
    (has : ∀ a ∈ as, a.1 < g.size ∧ a.2 < g.size) : (as.foldl Digraph.addArc g).Proper := by
  induction as generalizing g with
  | nil => exact hg
  | cons a as ih =>
    obtain ⟨h1, h2⟩ := has a List.mem_cons_self
    refine ih (hg.addArc h1 h2) fun b hb => ?_
    rw [size_addArc]
    exact has b (List.mem_cons_of_mem a hb)

theorem mem_foldl_addArc {as : List (Nat × Nat)} (has : ∀ a ∈ as, a.1 < g.size) :
    b ∈ (as.foldl addArc g).ordered ↔ b ∈ g.ordered ∨ b ∈ as := by
  induction as generalizing g with
  | nil => exact ⟨Or.inl, fun h => h.resolve_right List.not_mem_nil⟩
  | cons a as ih =>
    rw [List.foldl_cons, ih, mem_ordered_addArc (has a List.mem_cons_self), List.mem_cons, or_assoc]
    intro b hb
    rw [size_addArc]
    exact has b (List.mem_cons_of_mem a hb)

/-- An edge with a direction: as it is, or turned round. -/
def directed (e : Nat × Nat) (kept : Bool) : Nat × Nat :=
  if kept then e else (e.2, e.1)

theorem orient_eq (n : Nat) (edges : List (Nat × Nat)) (keep : List Bool) :
    orient n edges keep = (edges.zipWith directed keep).foldl addArc (discrete n) := rfl

theorem mem_zipWith_directed {edges : List (Nat × Nat)} {keep : List Bool} :
    a ∈ edges.zipWith directed keep ↔ ∃ e k, (e, k) ∈ edges.zip keep ∧ directed e k = a := by
  rw [← List.map_uncurry_zip_eq_zipWith, List.mem_map]
  constructor
  · rintro ⟨⟨e, k⟩, hek, h⟩
    exact ⟨e, k, hek, h⟩
  · rintro ⟨e, k, hek, h⟩
    exact ⟨(e, k), hek, h⟩

theorem ends_directed (e : Nat × Nat) (k : Bool) : directed e k = e ∨ directed e k = (e.2, e.1) := by
  cases k with
  | false => exact .inr rfl
  | true => exact .inl rfl

section Orient

variable {edges : List (Nat × Nat)} {keep : List Bool}

theorem lt_of_mem_directed (hedges : ∀ e ∈ edges, e.1 < n ∧ e.2 < n)
    (ha : a ∈ edges.zipWith directed keep) : a.1 < n ∧ a.2 < n := by
  obtain ⟨e, k, hek, rfl⟩ := mem_zipWith_directed.1 ha
  obtain ⟨h1, h2⟩ := hedges e (List.of_mem_zip hek).1
  rcases ends_directed e k with h | h
  · rw [h]
    exact ⟨h1, h2⟩
  · rw [h]
    exact ⟨h2, h1⟩

theorem size_orient (n : Nat) (edges : List (Nat × Nat)) (keep : List Bool) :
    (orient n edges keep).size = n := by
  rw [orient_eq, size_foldl_addArc, size_discrete]

theorem proper_orient (hedges : ∀ e ∈ edges, e.1 < n ∧ e.2 < n) : (orient n edges keep).Proper := by
  rw [orient_eq]
  refine (proper_discrete n).foldl_addArc fun a ha => ?_
  rw [size_discrete]
  exact lt_of_mem_directed hedges ha

theorem mem_orient (hedges : ∀ e ∈ edges, e.1 < n ∧ e.2 < n) :
    a ∈ (orient n edges keep).ordered ↔ ∃ e k, (e, k) ∈ edges.zip keep ∧ directed e k = a := by
  rw [orient_eq, mem_foldl_addArc, mem_zipWith_directed]
  · exact ⟨fun h => h.resolve_left (not_mem_ordered_discrete n), Or.inr⟩
  · intro b hb
    rw [size_discrete]
    exact (lt_of_mem_directed hedges hb).1

end Orient

/-! ## The opened source -/

/-- Turns the arcs from some nodes to `s` round. -/
def turn (g : Digraph) (s : Nat) (us : List Nat) : Digraph :=
  us.foldl (fun g u => (g.removeArc (u, s)).addArc (s, u)) g

theorem openSource_eq (g : Digraph) (s : Nat) :
    g.openSource s = if (g.descendants s).isEmpty then g.turn s (g.predecessors s) else g := rfl

theorem size_turn (us : List Nat) (g : Digraph) : (g.turn s us).size = g.size := by
  induction us generalizing g with
  | nil => rfl
  | cons u us ih =>
    exact (ih _).trans (by rw [size_addArc, size_removeArc])

theorem size_openSource (g : Digraph) (s : Nat) : (g.openSource s).size = g.size := by
  rw [openSource_eq]
  split
  · exact size_turn _ g
  · rfl

theorem Proper.turn (hg : g.Proper) (hs : s < g.size) {us : List Nat}
    (hus : ∀ u ∈ us, u < g.size) : (g.turn s us).Proper := by
  induction us generalizing g with
  | nil => exact hg
  | cons u us ih =>
    refine ih ((hg.removeArc (u, s)).addArc ?_ ?_) ?_ fun x hx => ?_
    · rw [size_removeArc]
      exact hs
    · rw [size_removeArc]
      exact hus u List.mem_cons_self
    · rw [size_addArc, size_removeArc]
      exact hs
    · rw [size_addArc, size_removeArc]
      exact hus x (List.mem_cons_of_mem u hx)

theorem Proper.openSource (hg : g.Proper) (hs : s < g.size) : (g.openSource s).Proper := by
  rw [openSource_eq]
  split
  · exact hg.turn hs fun u hu => Digraph.lt_size_of_mem ((hg.mem_iff u s).1 hu)
  · exact hg

theorem mem_turn (hs : s < g.size) {us : List Nat} :
    b ∈ (g.turn s us).ordered ↔
      (b ∈ g.ordered ∧ ¬(b.2 = s ∧ b.1 ∈ us)) ∨ (b.1 = s ∧ b.2 ∈ us) := by
  induction us generalizing g with
  | nil => exact ⟨fun h => .inl ⟨h, fun hb => List.not_mem_nil hb.2⟩,
      fun h => (h.resolve_right fun hb => List.not_mem_nil hb.2).1⟩
  | cons u us ih =>
    obtain ⟨x, y⟩ := b
    have hstep : (g.turn s (u :: us)) = ((g.removeArc (u, s)).addArc (s, u)).turn s us := rfl
    have hsize : s < ((g.removeArc (u, s)).addArc (s, u)).size := by
      rw [size_addArc, size_removeArc]
      exact hs
    have hsize' : s < (g.removeArc (u, s)).size := by
      rw [size_removeArc]
      exact hs
    rw [hstep, ih hsize, mem_ordered_addArc hsize', mem_ordered_removeArc]
    simp only [ne_eq, Prod.mk.injEq, List.mem_cons]
    constructor
    · rintro (⟨⟨h, hne⟩ | ⟨rfl, rfl⟩, hnot⟩ | ⟨rfl, h⟩)
      · exact .inl ⟨h, fun hx => hx.2.elim (fun hu => hne ⟨hu, hx.1⟩) fun hu => hnot ⟨hx.1, hu⟩⟩
      · exact .inr ⟨rfl, .inl rfl⟩
      · exact .inr ⟨rfl, .inr h⟩
    · rintro (⟨h, hnot⟩ | ⟨rfl, rfl | h⟩)
      · exact .inl ⟨.inl ⟨h, fun hx => hnot ⟨hx.2, .inl hx.1⟩⟩, fun hx => hnot ⟨hx.1, .inr hx.2⟩⟩
      · -- the new arc may be a loop that is turned once more
        by_cases hloop : y = x ∧ x ∈ us
        · exact .inr ⟨rfl, hloop.1 ▸ hloop.2⟩
        · exact .inl ⟨.inr ⟨rfl, rfl⟩, hloop⟩
      · exact .inr ⟨rfl, h⟩

theorem mem_descendants (hg : g.Proper) (hs : s < g.size) :
    v ∈ g.descendants s ↔
      Relation.ReflTransGen (fun u v => v ∈ g.successors u) s v ∧ v ≠ s := by
  rw [descendants, List.mem_filter, bne_iff_ne,
    Graph.mem_reached_iff (fun u w hw => hg.lt_size_of_mem hw) hs]

theorem eq_of_mem_successors_of_isEmpty (hg : g.Proper) (hs : s < g.size)
    (h : (g.descendants s).isEmpty) (hv : v ∈ g.successors s) : v = s := by
  by_contra hne
  have hmem : v ∈ g.descendants s := (mem_descendants hg hs).2 ⟨.single hv, hne⟩
  rw [List.isEmpty_iff.1 h] at hmem
  cases hmem

/-- An arc, turned round if it leads to `s`. -/
def opened (s : Nat) (a : Nat × Nat) : Nat × Nat :=
  if a.2 = s then (s, a.1) else a

/-- If nothing can be reached from the source, exactly the arcs into it are turned round. -/
theorem mem_openSource_of_isEmpty (hg : g.Proper) (hs : s < g.size)
    (h : (g.descendants s).isEmpty) :
    b ∈ (g.openSource s).ordered ↔ ∃ a ∈ g.ordered, opened s a = b := by
  obtain ⟨x, y⟩ := b
  rw [openSource_eq, if_pos h, mem_turn hs, mem_ordered, hg.mem_iff, hg.mem_iff]
  constructor
  · rintro (⟨hxy, hnot⟩ | ⟨rfl, hy⟩)
    · have hys : y ≠ s := fun hys => hnot ⟨hys, hys ▸ hxy⟩
      exact ⟨(x, y), mem_ordered.2 hxy, if_neg hys⟩
    · exact ⟨(y, x), mem_ordered.2 hy, if_pos rfl⟩
  · rintro ⟨⟨p, q⟩, hpq, he⟩
    by_cases hq : q = s
    · rw [opened, if_pos hq] at he
      cases he
      exact .inr ⟨rfl, hq ▸ mem_ordered.1 hpq⟩
    · rw [opened, if_neg hq] at he
      cases he
      exact .inl ⟨mem_ordered.1 hpq, fun hx => hq hx.1⟩

/-- Opening the source neither adds arcs nor loses any. -/
theorem length_openSource (hg : g.Proper) (hs : s < g.size) :
    (g.openSource s).ordered.length = g.ordered.length := by
  by_cases h : (g.descendants s).isEmpty
  · -- only a loop could leave the source, so that no turned arc meets another one
    have hleaves : ∀ y, (s, y) ∈ g.ordered → y = s := fun y hy =>
      eq_of_mem_successors_of_isEmpty hg hs h (mem_ordered.1 hy)
    have hinj : ∀ a ∈ g.ordered, ∀ b ∈ g.ordered, opened s a = opened s b → a = b := by
      rintro ⟨x, y⟩ hxy ⟨p, q⟩ hpq he
      unfold opened at he
      grind
    have hperm : List.Perm (g.openSource s).ordered (g.ordered.map (opened s)) := by
      rw [List.perm_ext_iff_of_nodup (hg.openSource hs).nodup_ordered
        (hg.nodup_ordered.map_on hinj)]
      intro b
      rw [mem_openSource_of_isEmpty hg hs h, List.mem_map]
    rw [hperm.length_eq, List.length_map]
  · rw [openSource_eq, if_neg h]

/-- No arc leads from a node to itself, before and after the source is opened. -/
theorem loopless_openSource (hg : g.Proper) (hs : s < g.size)
    (hloop : ∀ u, u ∉ g.successors u) : u ∉ (g.openSource s).successors u := by
  intro hu
  by_cases h : (g.descendants s).isEmpty
  · obtain ⟨⟨x, y⟩, hxy, he⟩ :=
      (mem_openSource_of_isEmpty hg hs h).1 (mem_ordered.2 hu)
    have hne : x ≠ y := by
      rintro rfl
      exact hloop x (mem_ordered.1 hxy)
    unfold opened at he
    grind
  · rw [openSource_eq, if_neg h] at hu
    exact hloop u hu

end Digraph
end Bilevel
