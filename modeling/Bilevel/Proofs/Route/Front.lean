import Bilevel.Proofs.Heap
import Bilevel.Proofs.Route.Transfer
import Mathlib.Data.Prod.Lex
import Mathlib.Data.List.Nodup

/-!
# Bilevel.Proofs.Route.Front

One of the two searches, over rational numbers.

* `Track` is a walk of a search with its length, newest node first, and `Trail` is what the search
  remembers of one.
* `Front.Sound` holds throughout a search: what is found lies at the end of a walk of that length,
  settled distances are the least ones, and nothing unsettled is nearer than what is settled.
* `Front.Sound.settle`: the next node of the fringe is at its least distance, as long as the settled
  nodes have been `Explored`.
* `lookAt_spec`, `lookAround_spec`: looking at neighbours succeeds, keeps what holds of the search
  and of the best meeting, and explores the node.
-/

namespace Bilevel
namespace Route

theorem lookup_cons_of_ne {δ : Type} {l : List (Nat × δ)} {w x : Nat} {d : δ} (h : x ≠ w) :
    ((w, d) :: l).lookup x = l.lookup x := by
  rw [List.lookup_cons, beq_eq_false_iff_ne.2 h]

/-- Nodes on the fringe are ordered by distance, then by time. -/
def Reached.key (r : Reached ℚ) : ℚ ×ₗ ℕ :=
  toLex (r.distance, r.time)

theorem before_eq (a b : Reached ℚ) : a.before b = .ok (decide (a.key < b.key)) := by
  have hrun : a.before b = if decide (a.distance = b.distance) then .ok (decide (a.time < b.time))
      else .ok (decide (a.distance < b.distance)) := by
    show (if decide (a.distance = b.distance) then _ else _) = _
    rfl
  have hlt : a.key < b.key ↔
      a.distance < b.distance ∨ a.distance = b.distance ∧ a.time < b.time := Prod.Lex.toLex_lt_toLex
  rw [hrun]
  by_cases h : a.distance = b.distance
  · rw [decide_eq_true h, if_pos rfl]
    refine congrArg Except.ok (decide_eq_decide.2 (Iff.trans ?_ hlt.symm))
    exact ⟨fun ht => .inr ⟨h, ht⟩, fun hk => hk.elim (fun hd => absurd h hd.ne) fun hk => hk.2⟩
  · rw [decide_eq_false h, if_neg Bool.false_ne_true]
    refine congrArg Except.ok (decide_eq_decide.2 (Iff.trans ?_ hlt.symm))
    exact ⟨Or.inl, fun hk => hk.resolve_right fun hk => h hk.1⟩

theorem distance_le_of_key_le {a b : Reached ℚ} (h : a.key ≤ b.key) : a.distance ≤ b.distance := by
  rcases Prod.Lex.toLex_le_toLex.1 h with h | h
  · exact h.le
  · exact h.1.le

/-! ## Walks and what is remembered of them -/

/-- A walk by the steps of a search from its start to a node, newest node first, with its length. -/
inductive Track (steps : Nat → List (Nat × ℚ)) (start : Nat) : Nat → List Nat → ℚ → Prop where
  | start : Track steps start start [start] 0
  | step {u w : Nat} {p : List Nat} {d c : ℚ} (hu : Track steps start u p d) (hw : (w, c) ∈ steps u) :
      Track steps start w (w :: p) (d + c)

/-- The way back from a node, as far as it is remembered. -/
inductive Trail (via : List (Nat × Nat)) : Nat → List Nat → Prop where
  | root {v : Nat} (h : via.lookup v = none) : Trail via v [v]
  | step {v u : Nat} {p : List Nat} (h : via.lookup v = some u) (hu : Trail via u p) :
      Trail via v (v :: p)

theorem Trail.cons {via : List (Nat × Nat)} {v w x : Nat} {p : List Nat} (h : Trail via v p)
    (hw : w ∉ p) : Trail ((w, x) :: via) v p := by
  induction h with
  | root h =>
    rw [List.mem_singleton] at hw
    exact .root ((lookup_cons_of_ne (Ne.symm hw)).trans h)
  | step h _ ih =>
    rw [List.mem_cons, not_or] at hw
    exact .step ((lookup_cons_of_ne (Ne.symm hw.1)).trans h) (ih hw.2)

theorem Trail.mem_cases {via : List (Nat × Nat)} {v u : Nat} {p : List Nat} (h : Trail via v p)
    (hu : u ∈ p) : u = v ∨ u ∈ p.tail := by
  cases h with
  | root _ => exact .inl (List.mem_singleton.1 hu)
  | step _ _ => exact List.mem_cons.1 hu

theorem Trail.wayBack_eq {via : List (Nat × Nat)} {v fuel : Nat} {p : List Nat} (h : Trail via v p)
    (hfuel : p.length ≤ fuel + 1) : wayBack via fuel v = p := by
  induction h generalizing fuel with
  | root h =>
    cases fuel with
    | zero => rfl
    | succ fuel => rw [wayBack, h]
  | step h hu ih =>
    cases fuel with
    | zero =>
      cases hu with
      | root _ =>
        rw [List.length_cons, List.length_singleton] at hfuel
        omega
      | step _ _ =>
        rw [List.length_cons, List.length_cons] at hfuel
        omega
    | succ fuel =>
      rw [wayBack, h]
      simp only
      rw [ih (by rw [List.length_cons] at hfuel; omega)]

theorem Trail.length_le {via : List (Nat × Nat)} {v : Nat} {p : List Nat} (h : Trail via v p)
    (hp : p.Nodup) : p.length ≤ via.length + 1 := by
  have hsub : p.dropLast ⊆ via.map Prod.fst := by
    clear hp
    induction h with
    | root _ => exact List.nil_subset _
    | @step v u p h hu ih =>
      have hne : p ≠ [] := by
        cases hu with
        | root _ => exact List.cons_ne_nil _ _
        | step _ _ => exact List.cons_ne_nil _ _
      rw [List.dropLast_cons_of_ne_nil hne]
      intro w hw
      rcases List.mem_cons.1 hw with rfl | hw
      · obtain ⟨a, ha, hw⟩ := List.lookup_isSome_iff.1 (Option.isSome_of_eq_some h)
        exact List.mem_map.2 ⟨a, ha, (beq_iff_eq.1 hw).symm⟩
      · exact ih hw
  have hlen := (List.subperm_of_subset (hp.sublist (List.dropLast_sublist p)) hsub).length_le
  rw [List.length_dropLast, List.length_map] at hlen
  omega

/-! ## What holds of a search -/

variable {steps : Nat → List (Nat × ℚ)} {start : Nat} {f : Front ℚ}

/-- What holds of a search from a start, whenever it is looked at. -/
structure Front.Sound (steps : Nat → List (Nat × ℚ)) (start : Nat) (f : Front ℚ) : Prop where
  start_found : ∃ d ≤ 0, f.found.lookup start = some d
  recorded : ∀ w d, f.found.lookup w = some d → ∃ p, Track steps start w p d ∧ Trail f.via w p ∧
    p.Nodup ∧ ∀ u ∈ p.tail, f.settled.lookup u ≠ none
  entry_found : ∀ r ∈ f.fringe, ∃ d ≤ r.distance, f.found.lookup r.node = some d
  found_entry : ∀ w d, f.found.lookup w = some d → f.settled.lookup w = none →
    ∃ r ∈ f.fringe, r.node = w ∧ r.distance = d
  settled_found : ∀ w d, f.settled.lookup w = some d → f.found.lookup w = some d
  optimal : ∀ w d, f.settled.lookup w = some d → ∀ p c, Track steps start w p c → d ≤ c
  separated : ∀ w d, f.settled.lookup w = some d → ∀ u, f.settled.lookup u = none →
    ∀ p c, Track steps start u p c → d ≤ c
  ordered : Heap.Ordered Reached.key f.fringe

/-- The given ways of a node have been looked at, if it is settled. -/
def Front.Explored (f : Front ℚ) (v : Nat) (ways : List (Nat × ℚ)) : Prop :=
  ∀ d, f.settled.lookup v = some d → ∀ s ∈ ways, ∃ e ≤ d + s.2, f.found.lookup s.1 = some e

/-- What holds of the best meeting: it is the sum of the two distances of a node, and no node that
both searches have found has a smaller one. -/
structure Meets (found others : List (Nat × ℚ)) (meeting : Meeting ℚ) : Prop where
  attained : ∀ μ m, meeting = some (μ, m) →
    ∃ a b, found.lookup m = some a ∧ others.lookup m = some b ∧ μ = a + b
  least : ∀ w a b, found.lookup w = some a → others.lookup w = some b →
    ∃ μ m, meeting = some (μ, m) ∧ μ ≤ a + b

theorem Meets.le_of_found {found others : List (Nat × ℚ)} {μ : ℚ} {m : Nat}
    (h : Meets found others (some (μ, m))) {w : Nat} {a b : ℚ} (ha : found.lookup w = some a)
    (hb : others.lookup w = some b) : μ ≤ a + b := by
  obtain ⟨μ', m', hm, hle⟩ := h.least w a b ha hb
  cases hm
  exact hle

theorem Meets.swap {found others : List (Nat × ℚ)} {meeting : Meeting ℚ}
    (h : Meets found others meeting) : Meets others found meeting where
  attained μ m hm := by
    obtain ⟨a, b, ha, hb, rfl⟩ := h.attained μ m hm
    exact ⟨b, a, hb, ha, add_comm a b⟩
  least w a b ha hb := by
    obtain ⟨μ, m, hm, hle⟩ := h.least w b a hb ha
    exact ⟨μ, m, hm, hle.trans_eq (add_comm b a)⟩

theorem lookup_start {start time w : Nat} {d : ℚ}
    (h : (Front.start start time : Front ℚ).found.lookup w = some d) : w = start ∧ d = 0 := by
  by_cases hw : w = start
  · subst hw
    exact ⟨rfl, (Option.some.inj (List.lookup_cons_self.symm.trans h)).symm⟩
  · have hnone := (lookup_cons_of_ne hw).symm.trans h
    cases hnone

theorem sound_start (steps : Nat → List (Nat × ℚ)) (start time : Nat) :
    (Front.start start time : Front ℚ).Sound steps start := by
  have hself : (Front.start start time : Front ℚ).found.lookup start = some 0 :=
    List.lookup_cons_self
  constructor
  · exact ⟨0, le_rfl, hself⟩
  · intro w d h
    obtain ⟨rfl, rfl⟩ := lookup_start h
    exact ⟨[w], .start, .root rfl, List.nodup_singleton w, fun u hu => by cases hu⟩
  · intro r hr
    have hr' : r = ⟨0, time, start⟩ := List.mem_singleton.1 (Array.mem_toList_iff.2 hr)
    subst hr'
    exact ⟨0, le_rfl, hself⟩
  · intro w d h _
    obtain ⟨rfl, rfl⟩ := lookup_start h
    exact ⟨⟨0, time, w⟩, Array.mem_toList_iff.1 (List.mem_singleton.2 rfl), rfl, rfl⟩
  · intro w d h
    cases h
  · intro w d h
    cases h
  · intro w d h
    cases h
  · intro j hj a b _ hb
    have hlt : j < 1 := (Array.getElem?_eq_some_iff.1 hb).1
    omega

/-! ## Settling the next node -/

/-- A fringe that is not empty gives its first node. -/
theorem Front.Sound.pop (h : f.Sound steps start) (hne : f.fringe.isEmpty = false) :
    ∃ r fringe, Heap.pop Reached.before f.fringe = .ok (some (r, fringe)) ∧
      f.fringe.toList.Perm (r :: fringe.toList) ∧ (∀ r' ∈ f.fringe, r.distance ≤ r'.distance) ∧
      Heap.Ordered Reached.key fringe := by
  have hpos : 0 < f.fringe.size := by
    rw [Array.isEmpty, decide_eq_false_iff_not] at hne
    omega
  obtain ⟨r, fringe, hrun, hperm, hleast, hord⟩ := Heap.pop_spec before_eq h.ordered hpos
  exact ⟨r, fringe, hrun, hperm, fun r' hr' => distance_le_of_key_le (hleast r' hr'), hord⟩

section Pop

variable {r : Reached ℚ} {fringe : Heap (Reached ℚ)}

theorem mem_rest (hperm : f.fringe.toList.Perm (r :: fringe.toList)) {r' : Reached ℚ} :
    r' ∈ f.fringe ↔ r' = r ∨ r' ∈ fringe := by
  rw [← Array.mem_toList_iff, hperm.mem_iff, List.mem_cons, Array.mem_toList_iff]

/-- An outdated entry of the fringe can be dropped. -/
theorem Front.Sound.skip (h : f.Sound steps start)
    (hperm : f.fringe.toList.Perm (r :: fringe.toList))
    (hord : Heap.Ordered Reached.key fringe) (hsettled : f.settled.lookup r.node ≠ none) :
    ({ f with fringe } : Front ℚ).Sound steps start where
  start_found := h.start_found
  recorded := h.recorded
  entry_found r' hr' := h.entry_found r' ((mem_rest hperm).2 (.inr hr'))
  found_entry w d hd hw := by
    obtain ⟨r', hr', hnode, hdist⟩ := h.found_entry w d hd hw
    rcases (mem_rest hperm).1 hr' with rfl | hr'
    · rw [hnode] at hsettled
      exact absurd hw hsettled
    · exact ⟨r', hr', hnode, hdist⟩
  settled_found := h.settled_found
  optimal := h.optimal
  separated := h.separated
  ordered := hord

/-- Nothing unsettled is nearer than the first node of the fringe. -/
theorem Front.Sound.le_track (h : f.Sound steps start)
    (hexplored : ∀ v, f.Explored v (steps v)) (hsteps : ∀ u, ∀ s ∈ steps u, 0 ≤ s.2)
    (hleast : ∀ r' ∈ f.fringe, r.distance ≤ r'.distance) {u : Nat} {p : List Nat} {c : ℚ}
    (ht : Track steps start u p c) (hu : f.settled.lookup u = none) : r.distance ≤ c := by
  induction ht with
  | start =>
    obtain ⟨d, hd, hfound⟩ := h.start_found
    obtain ⟨r', hr', -, hdist⟩ := h.found_entry start d hfound hu
    exact (hleast r' hr').trans (hdist.le.trans hd)
  | @step u w p d c hu' hw ih =>
    have hc : 0 ≤ c := hsteps u _ hw
    cases hsettled : f.settled.lookup u with
    | none =>
      have hle := ih hsettled
      linarith
    | some e =>
      have hopt := h.optimal u e hsettled p d hu'
      obtain ⟨e', he', hfound⟩ := hexplored u e hsettled _ hw
      obtain ⟨r', hr', -, hdist⟩ := h.found_entry w e' hfound hu
      have hle := hleast r' hr'
      simp only at he'
      linarith

/-- The first node of the fringe has its least distance. -/
theorem Front.Sound.found_first (h : f.Sound steps start)
    (hperm : f.fringe.toList.Perm (r :: fringe.toList))
    (hleast : ∀ r' ∈ f.fringe, r.distance ≤ r'.distance) (hr : f.settled.lookup r.node = none) :
    f.found.lookup r.node = some r.distance := by
  obtain ⟨d, hd, hfound⟩ := h.entry_found r ((mem_rest hperm).2 (.inl rfl))
  obtain ⟨r', hr', -, hdist⟩ := h.found_entry r.node d hfound hr
  have hle := hleast r' hr'
  rw [hdist] at hle
  rw [hfound, le_antisymm hd hle]

theorem Front.Sound.settle (h : f.Sound steps start)
    (hexplored : ∀ v, f.Explored v (steps v)) (hsteps : ∀ u, ∀ s ∈ steps u, 0 ≤ s.2)
    (hperm : f.fringe.toList.Perm (r :: fringe.toList))
    (hleast : ∀ r' ∈ f.fringe, r.distance ≤ r'.distance)
    (hord : Heap.Ordered Reached.key fringe) (hr : f.settled.lookup r.node = none) :
    ({ f with fringe, settled := (r.node, r.distance) :: f.settled } : Front ℚ).Sound steps start := by
  have hself : ((r.node, r.distance) :: f.settled).lookup r.node = some r.distance :=
    List.lookup_cons_self
  have hnone : ∀ w, ((r.node, r.distance) :: f.settled).lookup w = none →
      w ≠ r.node ∧ f.settled.lookup w = none := by
    intro w hw
    have hne : w ≠ r.node := by
      rintro rfl
      rw [hself] at hw
      cases hw
    exact ⟨hne, (lookup_cons_of_ne hne).symm.trans hw⟩
  have hsome : ∀ w d, ((r.node, r.distance) :: f.settled).lookup w = some d →
      (w = r.node ∧ d = r.distance) ∨ f.settled.lookup w = some d := by
    intro w d hw
    by_cases hne : w = r.node
    · subst hne
      exact .inl ⟨rfl, (Option.some.inj (hself.symm.trans hw)).symm⟩
    · exact .inr ((lookup_cons_of_ne hne).symm.trans hw)
  constructor
  · exact h.start_found
  · intro w d hd
    obtain ⟨p, htrack, htrail, hnodup, htail⟩ := h.recorded w d hd
    exact ⟨p, htrack, htrail, hnodup, fun u hu hw => htail u hu (hnone u hw).2⟩
  · exact fun r' hr' => h.entry_found r' ((mem_rest hperm).2 (.inr hr'))
  · intro w d hd hw
    obtain ⟨hne, hold⟩ := hnone w hw
    obtain ⟨r', hr', hnode, hdist⟩ := h.found_entry w d hd hold
    rcases (mem_rest hperm).1 hr' with rfl | hr'
    · exact absurd hnode.symm hne
    · exact ⟨r', hr', hnode, hdist⟩
  · intro w d hw
    rcases hsome w d hw with ⟨rfl, rfl⟩ | hw
    · exact h.found_first hperm hleast hr
    · exact h.settled_found w d hw
  · intro w d hw p c ht
    rcases hsome w d hw with ⟨rfl, rfl⟩ | hw
    · exact h.le_track hexplored hsteps hleast ht hr
    · exact h.optimal w d hw p c ht
  · intro w d hw u hu p c ht
    have hold := (hnone u hu).2
    rcases hsome w d hw with ⟨rfl, rfl⟩ | hw
    · exact h.le_track hexplored hsteps hleast ht hold
    · exact h.separated w d hw u hold p c ht
  · exact hord

end Pop

/-! ## Looking at neighbours -/

/-- A shorter way to an unsettled node is taken note of. -/
theorem Front.Sound.relax (h : f.Sound steps start) {v w time : Nat} {d c : ℚ}
    {fringe : Heap (Reached ℚ)} (hv : f.settled.lookup v = some d) (hw : (w, c) ∈ steps v)
    (hnew : f.settled.lookup w = none) (hbetter : ∀ e, f.found.lookup w = some e → d + c < e)
    (hperm : fringe.toList.Perm (⟨d + c, time, w⟩ :: f.fringe.toList))
    (hord : Heap.Ordered Reached.key fringe) :
    ({ f with
      found := (w, d + c) :: f.found
      via := (w, v) :: f.via
      fringe } : Front ℚ).Sound steps start := by
  have hself : ((w, d + c) :: f.found).lookup w = some (d + c) := List.lookup_cons_self
  have hmem : ∀ r : Reached ℚ, r ∈ fringe ↔ r = ⟨d + c, time, w⟩ ∨ r ∈ f.fringe := by
    intro r
    rw [← Array.mem_toList_iff, hperm.mem_iff, List.mem_cons, Array.mem_toList_iff]
  have hne : ∀ x, f.settled.lookup x ≠ none → x ≠ w := by
    rintro x hx rfl
    exact hx hnew
  have hvw : v ≠ w := hne v (by rw [hv]; exact Option.some_ne_none d)
  constructor
  · obtain ⟨d0, hd0, hfound⟩ := h.start_found
    by_cases hw0 : start = w
    · subst hw0
      exact ⟨d + c, (hbetter d0 hfound).le.trans hd0, hself⟩
    · exact ⟨d0, hd0, (lookup_cons_of_ne hw0).trans hfound⟩
  · intro x e he
    by_cases hx : x = w
    · subst hx
      have hede : d + c = e := Option.some.inj (hself.symm.trans he)
      subst hede
      -- the new way goes through settled nodes only, and the new node is none of them
      obtain ⟨p, htrack, htrail, hnodup, htail⟩ := h.recorded v d (h.settled_found v d hv)
      have hsettled : ∀ u ∈ p, f.settled.lookup u ≠ none := by
        intro u hu
        rcases htrail.mem_cases hu with rfl | hu
        · rw [hv]
          exact Option.some_ne_none d
        · exact htail u hu
      have hxp : x ∉ p := fun hmem => hsettled x hmem hnew
      exact ⟨x :: p, .step htrack hw, .step List.lookup_cons_self (htrail.cons hxp),
        List.nodup_cons.2 ⟨hxp, hnodup⟩, hsettled⟩
    · obtain ⟨p, htrack, htrail, hnodup, htail⟩ :=
        h.recorded x e ((lookup_cons_of_ne hx).symm.trans he)
      refine ⟨p, htrack, htrail.cons fun hwp => ?_, hnodup, htail⟩
      rcases htrail.mem_cases hwp with hwx | hwp
      · exact hx hwx.symm
      · exact htail w hwp hnew
  · intro r hr
    rcases (hmem r).1 hr with rfl | hr
    · exact ⟨d + c, le_rfl, hself⟩
    · obtain ⟨e, he, hfound⟩ := h.entry_found r hr
      by_cases hx : r.node = w
      · rw [hx] at hfound ⊢
        exact ⟨d + c, (hbetter e hfound).le.trans he, hself⟩
      · exact ⟨e, he, (lookup_cons_of_ne hx).trans hfound⟩
  · intro x e he hx
    by_cases hxw : x = w
    · subst hxw
      exact ⟨⟨d + c, time, x⟩, (hmem _).2 (.inl rfl), rfl, Option.some.inj (hself.symm.trans he)⟩
    · obtain ⟨r, hr, hnode, hdist⟩ := h.found_entry x e ((lookup_cons_of_ne hxw).symm.trans he) hx
      exact ⟨r, (hmem r).2 (.inr hr), hnode, hdist⟩
  · intro x e hx
    have hxw : x ≠ w := hne x (by rw [hx]; exact Option.some_ne_none e)
    exact (lookup_cons_of_ne hxw).trans (h.settled_found x e hx)
  · exact h.optimal
  · exact h.separated
  · exact hord

section Meeting

variable {found others : List (Nat × ℚ)} {meeting : Meeting ℚ} {w : Nat} {e b : ℚ}

theorem Meets.found_apart (h : Meets found others meeting) (hw : others.lookup w = none) :
    Meets ((w, e) :: found) others meeting := by
  have hne : ∀ x y, others.lookup x = some y → x ≠ w := by
    rintro x y hx rfl
    rw [hw] at hx
    cases hx
  constructor
  · intro μ m hm
    obtain ⟨a, y, ha, hy, hμ⟩ := h.attained μ m hm
    exact ⟨a, y, (lookup_cons_of_ne (hne m y hy)).trans ha, hy, hμ⟩
  · intro x a y ha hy
    exact h.least x a y ((lookup_cons_of_ne (hne x y hy)).symm.trans ha) hy

theorem Meets.better (h : Meets found others meeting) (hw : others.lookup w = some b)
    (hlt : ∀ μ m, meeting = some (μ, m) → e + b < μ) :
    Meets ((w, e) :: found) others (some (e + b, w)) := by
  constructor
  · intro μ m hm
    cases hm
    exact ⟨e, b, List.lookup_cons_self, hw, rfl⟩
  · intro x a y ha hy
    refine ⟨e + b, w, rfl, ?_⟩
    by_cases hx : x = w
    · subst hx
      rw [hw] at hy
      cases hy
      have hae : e = a := Option.some.inj (List.lookup_cons_self.symm.trans ha)
      rw [hae]
    · obtain ⟨μ, m, hm, hle⟩ := h.least x a y ((lookup_cons_of_ne hx).symm.trans ha) hy
      exact (hlt μ m hm).le.trans hle

theorem Meets.not_better (h : Meets found others meeting) (hw : others.lookup w = some b)
    (hnew : ∀ a, found.lookup w = some a → e < a) {μ : ℚ} {m : Nat} (hm : meeting = some (μ, m))
    (hle : μ ≤ e + b) : Meets ((w, e) :: found) others meeting := by
  constructor
  · intro μ' m' hm'
    obtain ⟨a, y, ha, hy, hμ⟩ := h.attained μ' m' hm'
    rw [hm] at hm'
    cases hm'
    have hmw : m ≠ w := by
      rintro rfl
      rw [hw] at hy
      cases hy
      have hlt := hnew a ha
      linarith
    exact ⟨a, y, (lookup_cons_of_ne hmw).trans ha, hy, hμ⟩
  · intro x a y ha hy
    by_cases hx : x = w
    · subst hx
      rw [hw] at hy
      cases hy
      have hae : e = a := Option.some.inj (List.lookup_cons_self.symm.trans ha)
      exact ⟨μ, m, hm, hae ▸ hle⟩
    · exact h.least x a y ((lookup_cons_of_ne hx).symm.trans ha) hy

end Meeting

/-- What a search still knows after it has looked at more: it has settled the same nodes, and no
distance has become greater. -/
structure Front.Extends (f f' : Front ℚ) : Prop where
  settled_eq : f'.settled = f.settled
  found_le : ∀ x e, f.found.lookup x = some e → ∃ e' ≤ e, f'.found.lookup x = some e'

theorem Front.Extends.refl (f : Front ℚ) : f.Extends f :=
  ⟨rfl, fun _ e he => ⟨e, le_rfl, he⟩⟩

theorem Front.Extends.trans {f f' f'' : Front ℚ} (h : f.Extends f') (h' : f'.Extends f'') :
    f.Extends f'' := by
  refine ⟨h'.settled_eq.trans h.settled_eq, fun x e he => ?_⟩
  obtain ⟨e', hle, he'⟩ := h.found_le x e he
  obtain ⟨e'', hle', he''⟩ := h'.found_le x e' he'
  exact ⟨e'', hle'.trans hle, he''⟩

theorem Front.Explored.extends {f f' : Front ℚ} (h : f.Extends f') {v : Nat}
    {ways : List (Nat × ℚ)} (hv : f.Explored v ways) : f'.Explored v ways := by
  intro d hd s hs
  rw [h.settled_eq] at hd
  obtain ⟨e, hle, he⟩ := hv d hd s hs
  obtain ⟨e', hle', he'⟩ := h.found_le s.1 e he
  exact ⟨e', hle'.trans hle, he'⟩

theorem extends_relax {v w : Nat} {d : ℚ} {fringe : Heap (Reached ℚ)}
    (hbetter : ∀ e, f.found.lookup w = some e → d < e) :
    f.Extends { f with found := (w, d) :: f.found, via := (w, v) :: f.via, fringe } := by
  refine ⟨rfl, fun x e he => ?_⟩
  by_cases hx : x = w
  · subst hx
    exact ⟨d, (hbetter e he).le, List.lookup_cons_self⟩
  · exact ⟨e, le_rfl, (lookup_cons_of_ne hx).trans he⟩

/-- Being nearer than what is there, if there is anything. -/
theorem improves_cases (a : ℚ) (b : Option ℚ) :
    (improves a b = .ok true ∧ ∀ e, b = some e → a < e) ∨
      (improves a b = .ok false ∧ ∃ e ≤ a, b = some e) := by
  cases b with
  | none => exact .inl ⟨rfl, fun e he => by cases he⟩
  | some e =>
    by_cases hlt : a < e
    · exact .inl ⟨congrArg Except.ok (decide_eq_true hlt), fun e' he' => by cases he'; exact hlt⟩
    · exact .inr ⟨congrArg Except.ok (decide_eq_false hlt), e, not_lt.1 hlt, rfl⟩

theorem lookAt_spec {others : List (Nat × ℚ)} {s : Progress ℚ} {v w : Nat} {d c : ℚ}
    (hs : s.front.Sound steps start) (hm : Meets s.front.found others s.meeting)
    (hv : s.front.settled.lookup v = some d) (hw : (w, c) ∈ steps v) :
    ∃ s', lookAt others v s w (d + c) = .ok s' ∧ s'.front.Sound steps start ∧
      Meets s'.front.found others s'.meeting ∧ s.front.Extends s'.front ∧
      (∃ e ≤ d + c, s'.front.found.lookup w = some e) ∧
      s'.front.fringe.size ≤ s.front.fringe.size + 1 := by
  rw [lookAt]
  cases hset : s.front.settled.lookup w with
  | some best =>
    obtain ⟨p, htrack, -, -, -⟩ := hs.recorded v d (hs.settled_found v d hv)
    have hle : best ≤ d + c := hs.optimal w best hset _ _ (.step htrack hw)
    have hnearer : nearer (d + c) best = .ok false :=
      congrArg Except.ok (decide_eq_false (not_lt.2 hle))
    refine ⟨s, ?_, hs, hm, .refl _, ⟨best, hle, hs.settled_found w best hset⟩, by omega⟩
    simp only [hnearer, bind, Except.bind]
    rfl
  | none =>
    simp only
    rcases improves_cases (d + c) (s.front.found.lookup w) with
      ⟨himproves, hbetter⟩ | ⟨himproves, hfound⟩
    · obtain ⟨fringe, hpush, hperm, hord⟩ :=
        Heap.push_spec before_eq hs.ordered (⟨d + c, s.time, w⟩ : Reached ℚ)
      have hsound := hs.relax hv hw hset hbetter hperm hord
      have hsize : fringe.size ≤ s.front.fringe.size + 1 := hperm.length_eq.le
      have hself : ((w, d + c) :: s.front.found).lookup w = some (d + c) := List.lookup_cons_self
      simp only [himproves, bind, Except.bind, hpush, if_true]
      cases hother : others.lookup w with
      | none =>
        exact ⟨_, rfl, hsound, hm.found_apart hother, extends_relax hbetter,
          ⟨d + c, le_rfl, hself⟩, hsize⟩
      | some b =>
        have hadd : Distance.add (d + c) b = d + c + b := rfl
        simp only [hadd]
        rcases improves_cases (d + c + b) (s.meeting.map (·.1)) with ⟨himp, hlt⟩ | ⟨himp, μ, hle, hμ⟩
        · simp only [himp, if_true]
          refine ⟨_, rfl, hsound, hm.better hother fun μ m hmeeting => ?_, extends_relax hbetter,
            ⟨d + c, le_rfl, hself⟩, hsize⟩
          exact hlt μ (congrArg (·.map (·.1)) hmeeting)
        · obtain ⟨⟨_, m⟩, hmeeting, rfl⟩ := Option.map_eq_some_iff.1 hμ
          rw [himp]
          exact ⟨_, rfl, hsound, hm.not_better hother hbetter hmeeting hle, extends_relax hbetter,
            ⟨d + c, le_rfl, hself⟩, hsize⟩
    · refine ⟨s, ?_, hs, hm, .refl _, hfound, by omega⟩
      simp only [himproves, bind, Except.bind]
      rfl

theorem lookAround_spec {others : List (Nat × ℚ)} {v : Nat} {d : ℚ} {ways : List (Nat × ℚ)}
    (hways : ways ⊆ steps v) {s : Progress ℚ} (hs : s.front.Sound steps start)
    (hm : Meets s.front.found others s.meeting) (hv : s.front.settled.lookup v = some d) :
    ∃ s', lookAround others v d ways s = .ok s' ∧ s'.front.Sound steps start ∧
      Meets s'.front.found others s'.meeting ∧ s.front.Extends s'.front ∧
      s'.front.Explored v ways ∧ s'.front.fringe.size ≤ s.front.fringe.size + ways.length := by
  induction ways generalizing s with
  | nil => exact ⟨s, rfl, hs, hm, .refl _, fun _ _ p hp => absurd hp List.not_mem_nil, le_rfl⟩
  | cons p ways ih =>
    obtain ⟨w, c⟩ := p
    obtain ⟨s₁, hrun₁, hs₁, hm₁, hext₁, ⟨e, hle, hfound⟩, hsize₁⟩ :=
      lookAt_spec hs hm hv (hways List.mem_cons_self)
    have hv₁ : s₁.front.settled.lookup v = some d := by
      rw [hext₁.settled_eq]
      exact hv
    obtain ⟨s₂, hrun₂, hs₂, hm₂, hext₂, hexplored, hsize₂⟩ :=
      ih (fun p hp => hways (List.mem_cons_of_mem _ hp)) hs₁ hm₁ hv₁
    refine ⟨s₂, ?_, hs₂, hm₂, hext₁.trans hext₂, ?_, ?_⟩
    · rw [lookAround]
      show (lookAt others v s w (d + c) >>= lookAround others v d ways) = _
      rw [hrun₁]
      exact hrun₂
    · intro d' hd' p hp
      have hdd : d' = d := by
        rw [hext₂.settled_eq, hv₁] at hd'
        exact (Option.some.inj hd').symm
      subst hdd
      rcases List.mem_cons.1 hp with rfl | hp
      · obtain ⟨e', hle', hfound'⟩ := hext₂.found_le w e hfound
        exact ⟨e', hle'.trans hle, hfound'⟩
      · exact hexplored d' hd' p hp
    · rw [List.length_cons]
      omega

end Route
end Bilevel
