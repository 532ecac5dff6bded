import Bilevel.Graph.Route
import Bilevel.Proofs.Exact.Scalar

/-!
# Bilevel.Proofs.Route.Transfer

The search runs in the same way over all distances that are added and compared alike.

* `Distance.Hom` is a map that keeps sums and comparisons; the rational numbers inside the exact
  numbers are the case that matters (`hom_finite`).
* `rise_map`, `sink_map`, `push_map`, `pop_map`: heaps follow such a map, and so do the steps of the
  search up to `shortest_map`.
-/

namespace Bilevel

instance : Distance ℚ where
  ofNat n := n
  add a b := a + b
  less? a b := some (decide (a < b))
  equal? a b := some (decide (a = b))

/-- A map that keeps sums and comparisons. -/
structure Distance.Hom {δ η : Type} [Distance δ] [Distance η] (φ : δ → η) : Prop where
  ofNat : ∀ n, φ (Distance.ofNat n) = Distance.ofNat n
  add : ∀ a b, φ (Distance.add a b) = Distance.add (φ a) (φ b)
  less? : ∀ a b, Distance.less? (φ a) (φ b) = Distance.less? a b
  equal? : ∀ a b, Distance.equal? (φ a) (φ b) = Distance.equal? a b

theorem hom_finite : Distance.Hom Extended.finite where
  ofNat _ := rfl
  add _ _ := rfl
  less? a b := by
    refine congrArg some ?_
    rw [Bool.eq_iff_iff, Extended.lt_finite_iff, decide_eq_true_iff]
  equal? a b := by
    refine congrArg some ?_
    rw [Bool.eq_iff_iff, Extended.eq_finite_iff, decide_eq_true_iff]

/-! ## Heaps -/

namespace Heap

variable {β γ ε : Type} {f : β → γ} {less : β → β → Except ε Bool} {less' : γ → γ → Except ε Bool}

theorem map_swap (f : β → γ) (h : Heap β) (i j : Nat) :
    Array.swapIfInBounds (h.map f) i j = (h.swapIfInBounds i j).map f := by
  refine Array.ext (by rw [Array.size_swapIfInBounds, Array.size_map, Array.size_map,
    Array.size_swapIfInBounds]) fun k h1 h2 => ?_
  grind

theorem rise_map (hf : ∀ x y, less' (f x) (f y) = less x y) (h : Heap β) (i : Nat) :
    rise less' (h.map f) i = (rise less h i).map (·.map f) := by
  induction i using Nat.strongRecOn generalizing h with
  | _ i ih =>
    rw [rise.eq_def less', rise.eq_def less]
    by_cases hi : 0 < i
    · rw [if_pos hi, if_pos hi, Array.getElem?_map, Array.getElem?_map]
      cases h[i]? with
      | none => rfl
      | some x =>
        cases h[parent i]? with
        | none => rfl
        | some y =>
          simp only [Option.map_some, hf]
          cases less x y with
          | error e => rfl
          | ok b =>
            cases b with
            | false => rfl
            | true =>
              have hstep := ih (parent i) (by unfold parent; omega)
                (h.swapIfInBounds i (parent i))
              rw [← map_swap] at hstep
              exact hstep
    · rw [if_neg hi, if_neg hi]
      rfl

theorem sink_map (hf : ∀ x y, less' (f x) (f y) = less x y) (h : Heap β) (i : Nat) :
    sink less' (h.map f) i = (sink less h i).map fun r => (r.1.map f, r.2) := by
  induction hn : h.size - i using Nat.strongRecOn generalizing h i with
  | _ n ih =>
    have hstep : ∀ c, i < c → i < h.size → sink less' (Array.swapIfInBounds (h.map f) i c) c =
        (sink less (h.swapIfInBounds i c) c).map fun r => (r.1.map f, r.2) := by
      intro c hc hi
      rw [map_swap]
      exact ih (h.size - c) (by omega) _ c (by rw [Array.size_swapIfInBounds])
    rw [sink.eq_def less', sink.eq_def less, Array.size_map]
    by_cases hleft : 2 * i + 1 < h.size
    · rw [if_pos hleft, if_pos hleft, Array.getElem?_map, Array.getElem?_map]
      have hl : h[2 * i + 1]? = some h[2 * i + 1] := Array.getElem?_eq_getElem hleft
      rw [hl]
      cases h[2 * i + 2]? with
      | none => exact hstep _ (by omega) (by omega)
      | some y =>
        simp only [Option.map_some, hf]
        cases less h[2 * i + 1] y with
        | error e => rfl
        | ok b =>
          cases b with
          | false => exact hstep _ (by omega) (by omega)
          | true => exact hstep _ (by omega) (by omega)
    · rw [if_neg hleft, if_neg hleft]
      rfl

theorem push_map (hf : ∀ x y, less' (f x) (f y) = less x y) (h : Heap β) (x : β) :
    push less' (h.map f) (f x) = (push less h x).map (·.map f) := by
  have hrise := rise_map hf (Array.push h x) h.size
  rw [Array.map_push] at hrise
  rw [push, push, Array.size_map]
  exact hrise

theorem pop_map (hf : ∀ x y, less' (f x) (f y) = less x y) (h : Heap β) :
    pop less' (h.map f) = (pop less h).map (·.map fun r => (f r.1, r.2.map f)) := by
  rw [pop, pop, Array.getElem?_map, Array.back?_map, Array.size_map]
  cases h[0]? with
  | none => rfl
  | some first =>
    cases h.back? with
    | none => rfl
    | some last =>
      simp only [Option.map_some]
      by_cases hone : h.size = 1
      · rw [if_pos hone, if_pos hone]
        simp only [pure, Except.pure, Except.map, Option.map_some, Array.map_empty]
      · rw [if_neg hone, if_neg hone]
        have hsink := sink_map hf ((Array.pop h).setIfInBounds 0 last) 0
        have hmap : ((Array.pop h).setIfInBounds 0 last).map f =
            (Array.pop (h.map f)).setIfInBounds 0 (f last) := by
          rw [Array.map_setIfInBounds, Array.map_pop]
        rw [hmap] at hsink
        rw [hsink]
        cases sink less ((Array.pop h).setIfInBounds 0 last) 0 with
        | error e => rfl
        | ok r =>
          obtain ⟨sunk, i⟩ := r
          simp only [Except.map, bind, Except.bind]
          rw [rise_map hf]
          cases rise less sunk i with
          | error e => rfl
          | ok h' => rfl

end Heap

/-! ## Searches -/

namespace Route

variable {δ η : Type} [Distance δ] [Distance η] {φ : δ → η}

def mapSnd {κ : Type} (φ : δ → η) (l : List (κ × δ)) : List (κ × η) :=
  l.map fun p => (p.1, φ p.2)

def Reached.map (φ : δ → η) (r : Reached δ) : Reached η :=
  ⟨φ r.distance, r.time, r.node⟩

def Front.map (φ : δ → η) (f : Front δ) : Front η :=
  ⟨mapSnd φ f.settled, mapSnd φ f.found, f.via, Array.map (Reached.map φ) f.fringe⟩

def Progress.map (φ : δ → η) (s : Progress δ) : Progress η :=
  ⟨s.front.map φ, s.time, s.meeting.map fun m => (φ m.1, m.2)⟩

omit [Distance δ] [Distance η] in
theorem lookup_mapSnd (φ : δ → η) (l : List (Nat × δ)) (w : Nat) :
    (mapSnd φ l).lookup w = (l.lookup w).map φ := by
  unfold mapSnd
  induction l with
  | nil => rfl
  | cons p l ih =>
    rw [List.map_cons, List.lookup_cons, List.lookup_cons, ih]
    split
    · rfl
    · rfl

theorem nearer_map (hφ : Distance.Hom φ) (a b : δ) : nearer (φ a) (φ b) = nearer a b := by
  rw [nearer, nearer, hφ.less?]

theorem before_map (hφ : Distance.Hom φ) (a b : Reached δ) :
    (a.map φ).before (b.map φ) = a.before b := by
  show (do
    if ← decided (Distance.equal? (φ a.distance) (φ b.distance)) then return decide (a.time < b.time)
    else nearer (φ a.distance) (φ b.distance)) = _
  rw [hφ.equal?, nearer_map hφ]
  rfl

theorem improves_map (hφ : Distance.Hom φ) (a : δ) (b : Option δ) :
    improves (φ a) (b.map φ) = improves a b := by
  cases b with
  | none => rfl
  | some b => exact nearer_map hφ a b

theorem start_map (hφ : Distance.Hom φ) (node time : Nat) :
    (Front.start node time : Front δ).map φ = Front.start node time := by
  simp [Front.map, Front.start, mapSnd, Reached.map, hφ.ofNat]

omit [Distance δ] [Distance η] in
theorem steps_map (φ : δ → η) (g : Digraph) (cost : Nat × Nat → δ) (along : Bool) (v : Nat) :
    steps g (fun a => φ (cost a)) along v = mapSnd φ (steps g cost along v) := by
  unfold steps mapSnd
  split
  · rw [List.map_map]
    rfl
  · rw [List.map_map]
    rfl

theorem lookAt_map (hφ : Distance.Hom φ) (others : List (Nat × δ)) (v : Nat) (s : Progress δ)
    (w : Nat) (d : δ) :
    lookAt (mapSnd φ others) v (s.map φ) w (φ d) = (lookAt others v s w d).map (Progress.map φ) := by
  have hsettled : (s.map φ).front.settled.lookup w = (s.front.settled.lookup w).map φ :=
    lookup_mapSnd φ _ w
  have hfound : (s.map φ).front.found.lookup w = (s.front.found.lookup w).map φ :=
    lookup_mapSnd φ _ w
  rw [lookAt, lookAt, hsettled]
  cases s.front.settled.lookup w with
  | some best =>
    simp only [Option.map_some, nearer_map hφ]
    cases nearer d best with
    | error why => rfl
    | ok b =>
      cases b with
      | false => rfl
      | true => rfl
  | none =>
    simp only [Option.map_none, hfound, improves_map hφ]
    cases improves d (s.front.found.lookup w) with
    | error why => rfl
    | ok b =>
      cases b with
      | false => rfl
      | true =>
        have hpush := Heap.push_map (before_map hφ) s.front.fringe ⟨d, s.time, w⟩
        have hfringe : Heap.push Reached.before (s.map φ).front.fringe ⟨φ d, (s.map φ).time, w⟩ =
            (Heap.push Reached.before s.front.fringe ⟨d, s.time, w⟩).map
              (Array.map (Reached.map φ)) := hpush
        simp only [bind, Except.bind, hfringe, lookup_mapSnd]
        cases Heap.push Reached.before s.front.fringe ⟨d, s.time, w⟩ with
        | error why => rfl
        | ok fringe =>
          cases others.lookup w with
          | none => rfl
          | some other =>
            have hmeeting : (s.map φ).meeting.map (·.1) = (s.meeting.map (·.1)).map φ := by
              show (s.meeting.map _).map _ = _
              rw [Option.map_map, Option.map_map]
              rfl
            simp only [Except.map, Option.map_some, if_true]
            rw [← hφ.add, hmeeting, improves_map hφ]
            cases improves (Distance.add d other) (s.meeting.map (·.1)) with
            | error why => rfl
            | ok b =>
              cases b with
              | false => rfl
              | true => rfl

theorem lookAround_map (hφ : Distance.Hom φ) (others : List (Nat × δ)) (v : Nat) (d : δ)
    (ways : List (Nat × δ)) (s : Progress δ) :
    lookAround (mapSnd φ others) v (φ d) (mapSnd φ ways) (s.map φ) =
      (lookAround others v d ways s).map (Progress.map φ) := by
  induction ways generalizing s with
  | nil => rfl
  | cons p ways ih =>
    obtain ⟨w, c⟩ := p
    show (lookAt (mapSnd φ others) v (s.map φ) w (Distance.add (φ d) (φ c)) >>=
      lookAround (mapSnd φ others) v (φ d) (mapSnd φ ways)) = _
    rw [← hφ.add, lookAt_map hφ, lookAround]
    cases lookAt others v s w (Distance.add d c) with
    | error why => rfl
    | ok s' => exact ih s'

theorem run_map (hφ : Distance.Hom φ) (g : Digraph) (cost : Nat × Nat → δ) (fuel : Nat)
    (along : Bool) (mine other : Front δ) (time : Nat) (meeting : Meeting δ) :
    run g (fun a => φ (cost a)) fuel along (mine.map φ) (other.map φ) time
      (meeting.map fun m => (φ m.1, m.2)) = run g cost fuel along mine other time meeting := by
  induction fuel generalizing along mine other time meeting with
  | zero => rfl
  | succ fuel ih =>
    have hempty : (other.map φ).fringe.isEmpty = other.fringe.isEmpty := by
      show (Array.map _ other.fringe).isEmpty = _
      rw [Array.isEmpty, Array.isEmpty, Array.size_map]
    have hpop : Heap.pop Reached.before (mine.map φ).fringe =
        (Heap.pop Reached.before mine.fringe).map
          (·.map fun r => (r.1.map φ, Array.map (Reached.map φ) r.2)) :=
      Heap.pop_map (before_map hφ) mine.fringe
    have hmine : ∀ w, (mine.map φ).settled.lookup w = (mine.settled.lookup w).map φ :=
      lookup_mapSnd φ mine.settled
    have hothers : ∀ w, (other.map φ).settled.lookup w = (other.settled.lookup w).map φ :=
      lookup_mapSnd φ other.settled
    rw [run, run, hempty]
    by_cases hother : other.fringe.isEmpty
    · rw [if_pos hother, if_pos hother]
    · rw [if_neg hother, if_neg hother, hpop]
      cases Heap.pop Reached.before mine.fringe with
      | error why => rfl
      | ok r =>
        cases r with
        | none => rfl
        | some r =>
          obtain ⟨next, fringe⟩ := r
          have hnode : (next.map φ).node = next.node := rfl
          simp only [Except.map, Option.map_some, bind, Except.bind, hnode, hmine, hothers,
            Option.isSome_map]
          by_cases hsettled : (mine.settled.lookup next.node).isSome
          · rw [if_pos hsettled, if_pos hsettled]
            exact ih (!along) other { mine with fringe } time meeting
          · rw [if_neg hsettled, if_neg hsettled]
            by_cases hmet : (other.settled.lookup next.node).isSome
            · rw [if_pos hmet, if_pos hmet]
              cases meeting with
              | none => rfl
              | some m => rfl
            · rw [if_neg hmet, if_neg hmet]
              have hlook := lookAround_map hφ other.found next.node next.distance
                (steps g cost along next.node)
                ⟨{ mine with fringe, settled := (next.node, next.distance) :: mine.settled },
                  time, meeting⟩
              rw [← steps_map] at hlook
              have hlook' : lookAround (other.map φ).found next.node (next.map φ).distance
                  (steps g (fun a => φ (cost a)) along next.node)
                  ⟨{ mine.map φ with
                    fringe := Array.map (Reached.map φ) fringe
                    settled := (next.node, (next.map φ).distance) :: (mine.map φ).settled },
                    time, meeting.map fun m => (φ m.1, m.2)⟩ = _ := hlook
              rw [hlook']
              cases lookAround other.found next.node next.distance (steps g cost along next.node)
                ⟨{ mine with fringe, settled := (next.node, next.distance) :: mine.settled },
                  time, meeting⟩ with
              | error why => rfl
              | ok s => exact ih (!along) other s.front s.time s.meeting

/-- A search over distances that are taken from others is a search over those. -/
theorem shortest_map (hφ : Distance.Hom φ) (g : Digraph) (cost : Nat × Nat → δ) (s t : Nat) :
    shortest g (fun a => φ (cost a)) s t = shortest g cost s t := by
  have hrun := run_map hφ g cost (2 * g.ordered.length + 3) true (Front.start s 0)
    (Front.start t 1) 2 none
  rw [start_map hφ, start_map hφ] at hrun
  rw [shortest, shortest]
  split
  · rfl
  · exact hrun

end Route
end Bilevel
