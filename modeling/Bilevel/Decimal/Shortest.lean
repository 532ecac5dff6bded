/-!
# Bilevel.Decimal.Shortest

The fewest digits that still name a number.

* A number that is stored with limited precision stands for all numbers that are rounded to it: a
  `Span` around a centre.
* `Span.shortest` takes the coarsest decimal grid that has a neighbour of the centre inside the
  span; of two neighbours inside it takes the nearer, and in the middle the even one.
* When no grid of up to seventeen digits has one, the centre itself is taken.
* `Span.holds_shortest`: what is chosen lies in the span.
-/

namespace Bilevel
namespace Decimal

/-- The numbers that one stored number stands for, counted on a decimal grid that holds the stored
number itself. The distances to the two ends are counted in quarters of the grid's unit. -/
structure Span where
  centre : Nat
  below : Nat
  above : Nat
  /-- Whether the ends belong to the span. -/
  closed : Bool
  deriving Repr, DecidableEq

namespace Span

/-- Whether a point of the grid lies in the span. -/
def holds (s : Span) (d : Nat) : Bool :=
  if s.closed then 4 * s.centre ≤ 4 * d + s.below && 4 * d ≤ 4 * s.centre + s.above
  else 4 * s.centre < 4 * d + s.below && 4 * d < 4 * s.centre + s.above

theorem holds_iff {s : Span} {d : Nat} : s.holds d = true ↔
    if s.closed = true then 4 * s.centre ≤ 4 * d + s.below ∧ 4 * d ≤ 4 * s.centre + s.above
    else 4 * s.centre < 4 * d + s.below ∧ 4 * d < 4 * s.centre + s.above := by
  simp only [holds]
  split <;> simp only [Bool.and_eq_true, decide_eq_true_eq]

/-- The multiple of `p` that names the number, counted in `p`: the nearer of the two neighbours of
the centre, as far as they lie in the span. -/
def neighbour? (s : Span) (p : Nat) : Option Nat :=
  let low := s.centre / p
  let high := low + 1
  let rest := s.centre % p
  if s.holds (low * p) then
    if s.holds (high * p) && (p < 2 * rest || (2 * rest = p && low % 2 = 1)) then some high
    else some low
  else if s.holds (high * p) then some high
  else none

/-- How many digits a positive number has. -/
def digitCount (n : Nat) : Nat :=
  (Nat.toDigits 10 n).length

/-- The fewest digits that name the number, and how many places of the grid they leave out. -/
def shortest (s : Span) : Nat × Nat :=
  let places := digitCount s.centre
  let found := (List.range' 1 17).findSome? fun n =>
    let dropped := places - n
    if 0 < dropped then (s.neighbour? (Nat.pow 10 dropped)).map fun d => (d, dropped) else none
  found.getD (s.centre, 0)

theorem holds_of_neighbour? {s : Span} {p d : Nat} (h : s.neighbour? p = some d) :
    s.holds (d * p) = true := by
  simp only [neighbour?] at h
  split at h
  · split at h
    · rename_i h2
      cases h
      simp only [Bool.and_eq_true] at h2
      exact h2.1
    · cases h
      assumption
  · split at h
    · cases h
      assumption
    · cases h

theorem holds_centre (s : Span) (h1 : 0 < s.below) (h2 : 0 < s.above) :
    s.holds s.centre = true := by
  simp only [holds]
  split
  · simp
  · simp [h1, h2]

/-- What is chosen names the number. -/
theorem holds_shortest (s : Span) (h1 : 0 < s.below) (h2 : 0 < s.above) :
    s.holds (s.shortest.1 * Nat.pow 10 s.shortest.2) = true := by
  simp only [shortest]
  cases hf : (List.range' 1 17).findSome? _ with
  | none => simpa using holds_centre s h1 h2
  | some r =>
    obtain ⟨n, _, hn⟩ := List.exists_of_findSome?_eq_some hf
    split at hn
    · obtain ⟨d, hd, rfl⟩ := Option.map_eq_some_iff.1 hn
      exact holds_of_neighbour? hd
    · cases hn

end Span
end Decimal
end Bilevel
