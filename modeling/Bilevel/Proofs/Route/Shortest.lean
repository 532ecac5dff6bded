import Bilevel.Proofs.Graph.Arcs
import Bilevel.Proofs.Graph.Walk
import Bilevel.Proofs.Route.Front

/-!
# Bilevel.Proofs.Route.Shortest

The two searches together find a cheapest path.

* `steps_reverse`: the two searches see the same arcs from both ends.
* `Front.left` counts what a search can still take from its fringe; every turn makes it less.
* `Rounds` is what holds between two turns, and `Rounds.turn` what a turn keeps of it.
* `le_of_met`: once a node is settled by both, no walk is shorter than the best meeting.
* `shortest_spec`: if no arc has a negative cost and the target can be reached, the search finds a
  path without repeated nodes that costs no more than any walk.
-/

namespace Bilevel
namespace Route

variable {g : Digraph} {cost : Nat × Nat → ℚ} {s t u v w : Nat} {along : Bool}

/-! ## Steps in both directions -/

theorem mem_steps_true {c : ℚ} :
    (w, c) ∈ steps g cost true u ↔ w ∈ g.successors u ∧ cost (u, w) = c := by
  rw [steps, if_pos rfl, List.mem_map]
  constructor
  · rintro ⟨x, hx, he⟩
    cases he
    exact ⟨hx, rfl⟩
  · rintro ⟨hw, rfl⟩
    exact ⟨w, hw, rfl⟩

theorem mem_steps_false {c : ℚ} :
    (w, c) ∈ steps g cost false u ↔ w ∈ g.predecessors u ∧ cost (w, u) = c := by
  rw [steps, if_neg Bool.false_ne_true, List.mem_map]
  constructor
  · rintro ⟨x, hx, he⟩
    cases he
    exact ⟨hx, rfl⟩
  · rintro ⟨hw, rfl⟩
    exact ⟨w, hw, rfl⟩

/-- What is a step for one search is a step back for the other. -/
theorem steps_reverse (hg : g.Proper) {c : ℚ} :
    (w, c) ∈ steps g cost along u ↔ (u, c) ∈ steps g cost (!along) w := by
  cases along with
  | true =>
    show (w, c) ∈ steps g cost true u ↔ (u, c) ∈ steps g cost false w
    rw [mem_steps_true, mem_steps_false, hg.mem_iff]
  | false =>
    show (w, c) ∈ steps g cost false u ↔ (u, c) ∈ steps g cost true w
    rw [mem_steps_true, mem_steps_false, hg.mem_iff]

theorem steps_nonneg (hg : g.Proper) (hcost : ∀ a ∈ g.ordered, 0 ≤ cost a) (along : Bool) (u : Nat) :
    ∀ p ∈ steps g cost along u, 0 ≤ p.2 := by
  rintro ⟨w, c⟩ hp
  cases along with
  | true =>
    obtain ⟨hw, rfl⟩ := mem_steps_true.1 hp
    exact hcost _ (Digraph.mem_ordered.2 hw)
  | false =>
    obtain ⟨hw, rfl⟩ := mem_steps_false.1 hp
    exact hcost _ (Digraph.mem_ordered.2 ((hg.mem_iff w u).1 hw))

theorem Track.prepend {ways : Nat → List (Nat × ℚ)} {p : List Nat} {c k : ℚ}
    (h : Track ways u v p c) (hu : (u, k) ∈ ways s) : Track ways s v (p ++ [s]) (k + c) := by
  induction h with
  | start =>
    rw [add_zero, ← zero_add k]
    exact .step .start hu
  | step _ hw ih =>
    rw [← add_assoc]
    exact .step ih hw

theorem leads_of_track_true {p : List Nat} {c : ℚ} (h : Track (steps g cost true) s u p c) :
    g.Leads s u p.reverse ∧ costOf cost p.reverse = c := by
  induction h with
  | start => exact ⟨.refl s, rfl⟩
  | step _ hstep ih =>
    obtain ⟨hw, rfl⟩ := mem_steps_true.1 hstep
    rw [List.reverse_cons, Digraph.costOf_snoc cost ih.1 hw, ih.2]
    exact ⟨ih.1.snoc hw, rfl⟩

theorem leads_of_track_false (hg : g.Proper) {p : List Nat} {c : ℚ}
    (h : Track (steps g cost false) t u p c) : g.Leads u t p ∧ costOf cost p = c := by
  induction h with
  | start => exact ⟨.refl t, rfl⟩
  | step _ hstep ih =>
    obtain ⟨hw, rfl⟩ := mem_steps_false.1 hstep
    obtain ⟨p', rfl⟩ := ih.1.exists_cons
    refine ⟨.cons ((hg.mem_iff _ _).1 hw) ih.1, ?_⟩
    rw [costOf_cons_cons, ih.2, add_comm]

/-- A walk as both searches see it. -/
theorem tracks_of_leads (hg : g.Proper) {p : List Nat} (h : g.Leads s t p) :
    (∃ p', Track (steps g cost true) s t p' (costOf cost p)) ∧
      ∃ p', Track (steps g cost false) t s p' (costOf cost p) := by
  induction h with
  | refl s => exact ⟨⟨[s], .start⟩, [s], .start⟩
  | @cons s u t p h hp ih =>
    obtain ⟨⟨p₁, h₁⟩, p₂, h₂⟩ := ih
    obtain ⟨p', rfl⟩ := hp.exists_cons
    rw [costOf_cons_cons]
    constructor
    · exact ⟨_, h₁.prepend (mem_steps_true.2 ⟨h, rfl⟩)⟩
    · rw [add_comm]
      exact ⟨_, .step h₂ (mem_steps_false.2 ⟨(hg.mem_iff s u).2 h, rfl⟩)⟩

/-! ## The path through a meeting -/

theorem join_spec (hg : g.Proper) {forward backward : Front ℚ} {m : Nat} {p q : List Nat} {x y : ℚ}
    (hp : Track (steps g cost true) s m p x) (hptrail : Trail forward.via m p) (hpnodup : p.Nodup)
    (hq : Track (steps g cost false) t m q y) (hqtrail : Trail backward.via m q) (hqnodup : q.Nodup)
    (hdisjoint : ∀ v ∈ p.tail, v ∉ q.tail) :
    g.Leads s t (join forward backward m) ∧ (join forward backward m).Nodup ∧
      costOf cost (join forward backward m) = x + y := by
  obtain ⟨hleads, hx⟩ := leads_of_track_true hp
  obtain ⟨hleads', hy⟩ := leads_of_track_false hg hq
  have hjoin : join forward backward m = p.reverse ++ q.tail := by
    rw [join, hptrail.wayBack_eq (hptrail.length_le hpnodup),
      hqtrail.wayBack_eq (hqtrail.length_le hqnodup)]
  rw [hjoin]
  refine ⟨hleads.append hleads', ?_, ?_⟩
  · refine List.nodup_append.2 ⟨List.nodup_reverse.2 hpnodup, hqnodup.tail, ?_⟩
    intro v hv w hw hvw
    subst hvw
    obtain ⟨q', rfl⟩ := hleads'.exists_cons
    rw [List.mem_reverse] at hv
    rcases hptrail.mem_cases hv with rfl | hv
    · exact (List.nodup_cons.1 hqnodup).1 hw
    · exact hdisjoint v hv hw
  · rw [Digraph.costOf_append_tail cost hleads hleads', hx, hy]

/-! ## What a search can still take -/

/-- The entries on the fringe, and the steps from nodes that are not settled. -/
def Front.left (n : Nat) (ways : Nat → List (Nat × ℚ)) (f : Front ℚ) : Nat :=
  f.fringe.size + ∑ u ∈ Finset.range n, if f.settled.lookup u = none then (ways u).length else 0

theorem left_settle {n : Nat} {ways : Nat → List (Nat × ℚ)} {settled : List (Nat × ℚ)} {d : ℚ}
    (hv : settled.lookup v = none) (hways : ∀ u, n ≤ u → ways u = []) :
    (∑ u ∈ Finset.range n, if ((v, d) :: settled).lookup u = none then (ways u).length else 0) +
      (ways v).length =
    ∑ u ∈ Finset.range n, if settled.lookup u = none then (ways u).length else 0 := by
  have hpoint : ∀ u ∈ Finset.range n, (if settled.lookup u = none then (ways u).length else 0) =
      (if ((v, d) :: settled).lookup u = none then (ways u).length else 0) +
        if v = u then (ways u).length else 0 := by
    intro u _
    by_cases hu : v = u
    · subst hu
      rw [if_pos hv, List.lookup_cons_self, if_neg (Option.some_ne_none d), if_pos rfl, zero_add]
    · rw [lookup_cons_of_ne (Ne.symm hu), if_neg hu, add_zero]
  rw [Finset.sum_congr rfl hpoint, Finset.sum_add_distrib, Finset.sum_ite_eq]
  by_cases hvn : v < n
  · rw [if_pos (Finset.mem_range.2 hvn)]
  · rw [if_neg fun h => hvn (Finset.mem_range.1 h), hways v (not_lt.1 hvn)]
    rfl

theorem left_skip {n : Nat} {ways : Nat → List (Nat × ℚ)} {f : Front ℚ} {r : Reached ℚ}
    {fringe : Heap (Reached ℚ)} (hperm : f.fringe.toList.Perm (r :: fringe.toList)) :
    ({ f with fringe } : Front ℚ).left n ways + 1 = f.left n ways := by
  have hsize : f.fringe.size = fringe.size + 1 := hperm.length_eq
  unfold Front.left
  simp only
  omega

theorem steps_of_size_le (hg : g.Proper) (cost : Nat × Nat → ℚ) (along : Bool) (hu : g.size ≤ u) :
    steps g cost along u = [] := by
  refine List.eq_nil_iff_forall_not_mem.2 ?_
  rintro ⟨w, c⟩ hp
  cases along with
  | true => exact absurd (Digraph.lt_size_of_mem (mem_steps_true.1 hp).1) (not_lt.2 hu)
  | false =>
    exact absurd (hg.lt_size_of_mem ((hg.mem_iff w u).1 (mem_steps_false.1 hp).1)) (not_lt.2 hu)

theorem left_start (n node time : Nat) (ways : Nat → List (Nat × ℚ)) :
    (Front.start node time : Front ℚ).left n ways = 1 + ∑ u ∈ Finset.range n, (ways u).length := by
  rfl

/-- There are as many steps along the arcs as against them. -/
theorem sum_steps (hg : g.Proper) (cost : Nat × Nat → ℚ) (along : Bool) :
    ∑ u ∈ Finset.range g.size, (steps g cost along u).length = g.ordered.length := by
  cases along with
  | true =>
    rw [Digraph.ordered, Links.length_all, Links.before_eq_sum]
    refine Finset.sum_congr rfl fun u _ => ?_
    rw [steps, if_pos rfl, List.length_map]
    rfl
  | false =>
    have hperm : (g.entering.all.map Prod.swap).Perm g.ordered := by
      refine (List.perm_ext_iff_of_nodup ?_ hg.nodup_ordered).2 ?_
      · exact (Links.nodup_all hg.nodup_predecessors).map Prod.swap_injective
      · rintro ⟨u, v⟩
        rw [List.mem_map_swap, Digraph.mem_ordered, ← hg.mem_iff]
        exact Links.mem_all
    rw [← hperm.length_eq, List.length_map, Links.length_all, Links.before_eq_sum, hg.size_entering]
    refine Finset.sum_congr rfl fun u _ => ?_
    rw [steps, if_neg Bool.false_ne_true, List.length_map]
    rfl

/-- A search without a fringe has settled all that can be reached. -/
theorem Front.Sound.settled_of_track {ways : Nat → List (Nat × ℚ)} {f : Front ℚ}
    (h : f.Sound ways s) (hexplored : ∀ v, f.Explored v (ways v)) (hempty : f.fringe.isEmpty = true)
    {p : List Nat} {c : ℚ} (ht : Track ways s u p c) : f.settled.lookup u ≠ none := by
  have hsettled : ∀ w d, f.found.lookup w = some d → f.settled.lookup w ≠ none := by
    intro w d hd hw
    obtain ⟨r, hr, -, -⟩ := h.found_entry w d hd hw
    rw [Array.isEmpty_iff.1 hempty] at hr
    exact absurd hr (Array.not_mem_empty r)
  induction ht with
  | start =>
    obtain ⟨d, -, hd⟩ := h.start_found
    exact hsettled s d hd
  | @step u w p d c _ hw ih =>
    obtain ⟨e, he⟩ := Option.ne_none_iff_exists'.1 ih
    obtain ⟨e', -, he'⟩ := hexplored u e he _ hw
    exact hsettled w e' he'

/-! ## Between two turns -/

/-- The start of the search in a direction. -/
def endOf (s t : Nat) (along : Bool) : Nat :=
  if along then s else t

/-- How far the two searches are: neither has begun, only the other one has, or both have settled
their starts. -/
inductive Staged (a b : Nat) (mine other : Front ℚ) : Prop where
  | both (time time' : Nat) (hm : mine = Front.start a time) (ho : other = Front.start b time')
  | one (time : Nat) (d : ℚ) (hm : mine = Front.start a time) (ho : other.settled = [(b, d)])
  | none (hm : mine.settled.lookup a ≠ none) (ho : other.settled.lookup b ≠ none)

/-- What holds between two turns. -/
structure Rounds (g : Digraph) (cost : Nat × Nat → ℚ) (s t : Nat) (along : Bool)
    (mine other : Front ℚ) (meeting : Meeting ℚ) : Prop where
  mine_sound : mine.Sound (steps g cost along) (endOf s t along)
  other_sound : other.Sound (steps g cost (!along)) (endOf s t (!along))
  mine_explored : ∀ v, mine.Explored v (steps g cost along v)
  other_explored : ∀ v, other.Explored v (steps g cost (!along) v)
  meets : Meets mine.found other.found meeting
  apart : ∀ v, mine.settled.lookup v ≠ none → other.settled.lookup v = none
  staged : Staged (endOf s t along) (endOf s t (!along)) mine other

variable {mine other : Front ℚ} {meeting : Meeting ℚ}

theorem fringe_start (node time : Nat) :
    (Front.start node time : Front ℚ).fringe.isEmpty = false := rfl

theorem Rounds.other_fringe (h : Rounds g cost s t along mine other meeting)
    (hne : endOf s t along ≠ endOf s t (!along))
    (hreach : ∃ p c, Track (steps g cost (!along)) (endOf s t (!along)) (endOf s t along) p c) :
    other.fringe.isEmpty = false := by
  cases hempty : other.fringe.isEmpty with
  | false => rfl
  | true =>
    obtain ⟨p, c, ht⟩ := hreach
    have hsettled := h.other_sound.settled_of_track h.other_explored hempty ht
    cases h.staged with
    | both time time' hm ho =>
      rw [ho, fringe_start] at hempty
      cases hempty
    | one time d hm ho =>
      rw [ho, lookup_cons_of_ne hne] at hsettled
      exact absurd rfl hsettled
    | none hm ho => exact absurd (h.apart _ hm) hsettled

theorem Rounds.mine_fringe (h : Rounds g cost s t along mine other meeting)
    (hreach : ∃ p c, Track (steps g cost along) (endOf s t along) (endOf s t (!along)) p c) :
    mine.fringe.isEmpty = false := by
  cases hempty : mine.fringe.isEmpty with
  | false => rfl
  | true =>
    obtain ⟨p, c, ht⟩ := hreach
    have hsettled := h.mine_sound.settled_of_track h.mine_explored hempty ht
    cases h.staged with
    | both time time' hm ho =>
      rw [hm, fringe_start] at hempty
      cases hempty
    | one time d hm ho =>
      rw [hm, fringe_start] at hempty
      cases hempty
    | none hm ho => exact absurd (h.apart _ hsettled) ho

section Met

variable {r : Reached ℚ} {fringe : Heap (Reached ℚ)} {μ far : ℚ} {m : Nat}

/-- From an unsettled node on, either the other search was there too, or both parts of the walk are at
least as long as those through a node that the other search has settled. -/
theorem Rounds.le_past_unsettled (h : Rounds g cost s t along mine other (some (μ, m)))
    (hsteps : ∀ u, ∀ p ∈ steps g cost along u, 0 ≤ p.2)
    (hleast : ∀ r' ∈ mine.fringe, r.distance ≤ r'.distance)
    (hmet : other.settled.lookup r.node = some far) (hmid : μ ≤ r.distance + far)
    (hu : mine.settled.lookup u = none) {p q : List Nat} {c x e : ℚ}
    (htm : Track (steps g cost along) (endOf s t along) u p c)
    (hx : mine.found.lookup u = some x) (hle : x ≤ c)
    (hto : Track (steps g cost (!along)) (endOf s t (!along)) u q e) : μ ≤ c + e := by
  cases hother : other.settled.lookup u with
  | some y =>
    have hopt := h.other_sound.optimal u y hother q e hto
    have hsum := h.meets.le_of_found hx (h.other_sound.settled_found u y hother)
    linarith
  | none =>
    have hsep := h.other_sound.separated r.node far hmet u hother q e hto
    have hdist := h.mine_sound.le_track h.mine_explored hsteps hleast htm hu
    linarith

/-- Once a node is settled by both searches, no walk is shorter than the best meeting. -/
theorem Rounds.le_of_met (h : Rounds g cost s t along mine other (some (μ, m))) (hg : g.Proper)
    (hcost : ∀ a ∈ g.ordered, 0 ≤ cost a) (hperm : mine.fringe.toList.Perm (r :: fringe.toList))
    (hleast : ∀ r' ∈ mine.fringe, r.distance ≤ r'.distance)
    (hnew : mine.settled.lookup r.node = none) (hmet : other.settled.lookup r.node = some far)
    {q : List Nat} {e : ℚ}
    (ht : Track (steps g cost (!along)) (endOf s t (!along)) (endOf s t along) q e) : μ ≤ e := by
  have hsteps := steps_nonneg hg hcost along
  have hmid : μ ≤ r.distance + far :=
    h.meets.le_of_found (h.mine_sound.found_first hperm hleast hnew)
      (h.other_sound.settled_found _ _ hmet)
  -- along the walk, as long as its nodes are settled; the walk is looked at from its far end
  have hsettled : ∀ {u q e}, Track (steps g cost (!along)) (endOf s t (!along)) u q e →
      ∀ d, mine.settled.lookup u = some d → μ ≤ d + e := by
    intro u q e hto
    induction hto with
    | start =>
      intro d hd
      obtain ⟨y, hy, hfound⟩ := h.other_sound.start_found
      have hsum := h.meets.le_of_found (h.mine_sound.settled_found _ d hd) hfound
      linarith
    | @step u w q e k hto hw ih =>
      intro d hd
      have hback : (u, k) ∈ steps g cost along w := (steps_reverse hg).2 hw
      obtain ⟨x, hle, hx⟩ := h.mine_explored w d hd _ hback
      obtain ⟨p, htrack, -, -, -⟩ := h.mine_sound.recorded w d (h.mine_sound.settled_found w d hd)
      cases hu : mine.settled.lookup u with
      | some d' =>
        have hdx := h.mine_sound.settled_found u d' hu
        rw [hx] at hdx
        cases hdx
        have hih := ih x hu
        simp only at hle
        linarith
      | none =>
        have hle' := h.le_past_unsettled hsteps hleast hmet hmid hu (.step htrack hback) hx hle hto
        linarith
  cases ha : mine.settled.lookup (endOf s t along) with
  | some d =>
    have hd := h.mine_sound.optimal _ d ha _ _ .start
    have hle := hsettled ht d ha
    linarith
  | none =>
    obtain ⟨x, hx, hfound⟩ := h.mine_sound.start_found
    have hle := h.le_past_unsettled hsteps hleast hmet hmid ha .start hfound hx ht
    linarith

end Met

/-! ## Turns -/

section Turn

variable {r : Reached ℚ} {fringe : Heap (Reached ℚ)}

/-- The first node of a search that has not begun is its start. -/
theorem node_of_start {a time : Nat} (hm : mine = Front.start a time)
    (hperm : mine.fringe.toList.Perm (r :: fringe.toList)) : r.node = a := by
  have hr : r ∈ mine.fringe := (mem_rest hperm).2 (.inl rfl)
  rw [hm] at hr
  have hr' : r = ⟨Distance.ofNat 0, time, a⟩ := List.mem_singleton.1 (Array.mem_toList_iff.2 hr)
  rw [hr']

theorem Rounds.skip (h : Rounds g cost s t along mine other meeting)
    (hperm : mine.fringe.toList.Perm (r :: fringe.toList))
    (hord : Heap.Ordered Reached.key fringe) (hr : mine.settled.lookup r.node ≠ none) :
    Rounds g cost s t (!along) other { mine with fringe } meeting where
  mine_sound := h.other_sound
  other_sound := by
    rw [Bool.not_not]
    exact h.mine_sound.skip hperm hord hr
  mine_explored := h.other_explored
  other_explored := by
    rw [Bool.not_not]
    exact h.mine_explored
  meets := h.meets.swap
  apart v hv := by
    by_contra hne
    exact hv (h.apart v hne)
  staged := by
    rw [Bool.not_not]
    cases h.staged with
    | both time time' hm ho =>
      rw [hm] at hr
      exact absurd rfl hr
    | one time d hm ho =>
      rw [hm] at hr
      exact absurd rfl hr
    | none hm ho => exact .none ho hm

theorem Rounds.turn (h : Rounds g cost s t along mine other meeting)
    (hperm : mine.fringe.toList.Perm (r :: fringe.toList))
    (hother : other.settled.lookup r.node = none) {front : Front ℚ} {best : Meeting ℚ}
    (hsound : front.Sound (steps g cost along) (endOf s t along))
    (hmeets : Meets front.found other.found best)
    (hextends : ({ mine with
      fringe, settled := (r.node, r.distance) :: mine.settled } : Front ℚ).Extends front)
    (hexplored : front.Explored r.node (steps g cost along r.node)) :
    Rounds g cost s t (!along) other front best where
  mine_sound := h.other_sound
  other_sound := by
    rw [Bool.not_not]
    exact hsound
  mine_explored := h.other_explored
  other_explored := by
    rw [Bool.not_not]
    intro v
    by_cases hv : v = r.node
    · subst hv
      exact hexplored
    · refine Front.Explored.extends hextends fun d hd => h.mine_explored v d ?_
      exact (lookup_cons_of_ne hv).symm.trans hd
  meets := hmeets.swap
  apart v hv := by
    have hne : v ≠ r.node := by
      rintro rfl
      exact hv hother
    rw [hextends.settled_eq]
    by_contra hmine
    rw [lookup_cons_of_ne hne] at hmine
    exact hv (h.apart v hmine)
  staged := by
    rw [Bool.not_not]
    cases h.staged with
    | both time time' hm ho =>
      refine .one time' r.distance ho ?_
      rw [hextends.settled_eq, ← node_of_start hm hperm, hm]
      rfl
    | one time d hm ho =>
      refine .none ?_ ?_
      · rw [ho, List.lookup_cons_self]
        exact Option.some_ne_none d
      · rw [hextends.settled_eq, ← node_of_start hm hperm, List.lookup_cons_self]
        exact Option.some_ne_none _
    | none hm ho =>
      refine .none ho ?_
      rw [hextends.settled_eq]
      by_cases ha : endOf s t along = r.node
      · rw [ha, List.lookup_cons_self]
        exact Option.some_ne_none _
      · rw [lookup_cons_of_ne ha]
        exact hm

/-- The path through the best meeting. -/
theorem Rounds.join_spec {μ : ℚ} {m : Nat}
    (h : Rounds g cost s t along mine other (some (μ, m))) (hg : g.Proper)
    (settled : List (Nat × ℚ)) (fringe : Heap (Reached ℚ)) :
    let mine' : Front ℚ := { mine with fringe, settled }
    let path := if along then join mine' other m else join other mine' m
    g.Leads s t path ∧ path.Nodup ∧ costOf cost path = μ := by
  obtain ⟨x, y, hx, hy, rfl⟩ := h.meets.attained μ m rfl
  obtain ⟨p, hp, hptrail, hpnodup, hptail⟩ := h.mine_sound.recorded m x hx
  obtain ⟨q, hq, hqtrail, hqnodup, hqtail⟩ := h.other_sound.recorded m y hy
  cases along with
  | true =>
    exact Route.join_spec hg hp hptrail hpnodup hq hqtrail hqnodup fun v hv hv' =>
      hqtail v hv' (h.apart v (hptail v hv))
  | false =>
    rw [add_comm x y]
    exact Route.join_spec hg hq hqtrail hqnodup hp hptrail hpnodup fun v hv hv' =>
      hqtail v hv (h.apart v (hptail v hv'))

end Turn

/-! ## The whole search -/

theorem endOf_ne (hst : s ≠ t) (along : Bool) : endOf s t along ≠ endOf s t (!along) := by
  cases along with
  | true => exact hst
  | false => exact hst.symm

/-- A walk as a search sees it. -/
theorem exists_track (hg : g.Proper) (cost : Nat × Nat → ℚ) {p : List Nat} (h : g.Leads s t p)
    (along : Bool) : ∃ p', Track (steps g cost along) (endOf s t along) (endOf s t (!along)) p'
      (costOf cost p) := by
  cases along with
  | true => exact (tracks_of_leads hg h).1
  | false => exact (tracks_of_leads hg h).2

/-- A cheapest walk, without repeated nodes. -/
def Cheapest (g : Digraph) (cost : Nat × Nat → ℚ) (s t : Nat) (p : List Nat) : Prop :=
  g.Leads s t p ∧ p.Nodup ∧ ∀ q, g.Leads s t q → costOf cost p ≤ costOf cost q

/-- A round whose search has a next node. -/
theorem run_succ {fuel time : Nat} {r : Reached ℚ} {fringe : Heap (Reached ℚ)}
    (hother : other.fringe.isEmpty = false)
    (hpop : Heap.pop Reached.before mine.fringe = .ok (some (r, fringe))) :
    run g cost (fuel + 1) along mine other time meeting =
      if (mine.settled.lookup r.node).isSome then
        run g cost fuel (!along) other { mine with fringe } time meeting
      else
        let mine := { mine with fringe, settled := (r.node, r.distance) :: mine.settled }
        if (other.settled.lookup r.node).isSome then
          match meeting with
          | none => .error .noPath
          | some (_, m) => return if along then join mine other m else join other mine m
        else
          lookAround other.found r.node r.distance (steps g cost along r.node) ⟨mine, time, meeting⟩
            >>= fun s => run g cost fuel (!along) other s.front s.time s.meeting := by
  rw [run, if_neg (by rw [hother]; exact Bool.false_ne_true), hpop]
  cases meeting with
  | none => rfl
  | some best => rfl

/-- A round gives a cheapest walk, or it leaves less for the rounds that follow. -/
theorem Rounds.round (h : Rounds g cost s t along mine other meeting) (hg : g.Proper)
    (hcost : ∀ a ∈ g.ordered, 0 ≤ cost a) (hst : s ≠ t) (hreach : ∃ p, g.Leads s t p)
    (fuel time : Nat) :
    (∃ p, run g cost (fuel + 1) along mine other time meeting = .ok p ∧ Cheapest g cost s t p) ∨
    ∃ front time' best, run g cost (fuel + 1) along mine other time meeting =
        run g cost fuel (!along) other front time' best ∧
      Rounds g cost s t (!along) other front best ∧
      front.left g.size (steps g cost along) < mine.left g.size (steps g cost along) := by
  obtain ⟨p, hp⟩ := hreach
  have htrack := fun along => exists_track hg cost hp along
  have hothers : other.fringe.isEmpty = false := by
    obtain ⟨p', ht⟩ := htrack (!along)
    rw [Bool.not_not] at ht
    exact h.other_fringe (endOf_ne hst along) ⟨p', _, ht⟩
  obtain ⟨p', ht⟩ := htrack along
  obtain ⟨r, fringe, hpop, hperm, hleast, hord⟩ := h.mine_sound.pop (h.mine_fringe ⟨p', _, ht⟩)
  rw [run_succ hothers hpop]
  have hleft : ({ mine with fringe } : Front ℚ).left g.size (steps g cost along) + 1 =
      mine.left g.size (steps g cost along) := left_skip hperm
  cases hmine : mine.settled.lookup r.node with
  | some d =>
    rw [Option.isSome_some, if_pos rfl]
    have hsettled : mine.settled.lookup r.node ≠ none := by
      rw [hmine]
      exact Option.some_ne_none d
    exact .inr ⟨_, time, meeting, rfl, h.skip hperm hord hsettled, by omega⟩
  | none =>
    rw [Option.isSome_none, if_neg Bool.false_ne_true]
    simp only
    cases hmet : other.settled.lookup r.node with
    | some far =>
      rw [Option.isSome_some, if_pos rfl]
      obtain ⟨μ, m, hmeeting, -⟩ := h.meets.least r.node r.distance far
        (h.mine_sound.found_first hperm hleast hmine) (h.other_sound.settled_found _ _ hmet)
      subst hmeeting
      obtain ⟨hleads, hnodup, hcostOf⟩ :=
        h.join_spec hg ((r.node, r.distance) :: mine.settled) fringe
      refine .inl ⟨_, rfl, hleads, hnodup, fun q hq => ?_⟩
      obtain ⟨q', ht'⟩ := exists_track hg cost hq (!along)
      rw [Bool.not_not] at ht'
      rw [hcostOf]
      exact h.le_of_met hg hcost hperm hleast hmine hmet ht'
    | none =>
      rw [Option.isSome_none, if_neg Bool.false_ne_true]
      have hsound := h.mine_sound.settle h.mine_explored (steps_nonneg hg hcost along) hperm hleast
        hord hmine
      obtain ⟨s', hlook, hsound', hmeets, hextends, hexplored, hsize⟩ :=
        lookAround_spec (s := ⟨_, time, meeting⟩) (fun _ hx => hx) hsound h.meets
          List.lookup_cons_self
      rw [hlook]
      refine .inr ⟨s'.front, s'.time, s'.meeting, rfl,
        h.turn hperm hmet hsound' hmeets hextends hexplored, ?_⟩
      have hsettle := left_settle (d := r.distance) hmine fun u hu =>
        steps_of_size_le hg cost along hu
      have hsettled := hextends.settled_eq
      simp only at hsettled hsize
      rw [Front.left] at hleft ⊢
      rw [hsettled]
      simp only at hleft
      omega

theorem run_spec (hg : g.Proper) (hcost : ∀ a ∈ g.ordered, 0 ≤ cost a) (hst : s ≠ t)
    (hreach : ∃ p, g.Leads s t p) {fuel time : Nat}
    (h : Rounds g cost s t along mine other meeting)
    (hfuel : mine.left g.size (steps g cost along) + other.left g.size (steps g cost (!along)) < fuel) :
    ∃ p, run g cost fuel along mine other time meeting = .ok p ∧ Cheapest g cost s t p := by
  induction fuel generalizing along mine other time meeting with
  | zero => exact absurd hfuel (Nat.not_lt_zero _)
  | succ fuel ih =>
    rcases h.round hg hcost hst hreach fuel time with hdone | ⟨front, time', best, hrun, hrounds, hlt⟩
    · exact hdone
    · rw [hrun]
      refine ih hrounds ?_
      rw [Bool.not_not]
      omega

theorem rounds_start (hst : s ≠ t) :
    Rounds g cost s t true (Front.start s 0) (Front.start t 1) none where
  mine_sound := sound_start _ s 0
  other_sound := sound_start _ t 1
  mine_explored _ _ hd := by cases hd
  other_explored _ _ hd := by cases hd
  meets := by
    constructor
    · intro μ m hm
      cases hm
    · intro w a b ha hb
      obtain ⟨hs, -⟩ := lookup_start ha
      obtain ⟨ht, -⟩ := lookup_start hb
      exact absurd (hs.symm.trans ht) hst
  apart _ _ := rfl
  staged := .both 0 1 rfl rfl

/-- If no arc has a negative cost and the target can be reached, the search finds a cheapest walk. -/
theorem shortest_spec (hg : g.Proper) (hcost : ∀ a ∈ g.ordered, 0 ≤ cost a)
    (hreach : ∃ p, g.Leads s t p) : ∃ p, shortest g cost s t = .ok p ∧ Cheapest g cost s t p := by
  rw [shortest]
  by_cases hst : s = t
  · subst hst
    rw [if_pos rfl]
    refine ⟨[s], rfl, .refl s, List.nodup_singleton s, fun q hq => ?_⟩
    rw [costOf_singleton]
    exact hq.costOf_nonneg hcost
  · rw [if_neg hst]
    refine run_spec hg hcost hst hreach (rounds_start hst) ?_
    rw [left_start, left_start, sum_steps hg, sum_steps hg]
    omega

end Route
end Bilevel
