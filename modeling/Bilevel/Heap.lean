/-!
# Bilevel.Heap

Binary heaps: priority queues that are kept in an array.

* The item at position `i` has its children at the positions `2 * i + 1` and `2 * i + 2`.
* `Heap.push` puts an item at the end and lets it rise. `Heap.pop` takes out the first item, puts
  the last one in its place, lets it sink to the very bottom, and from there lets it rise.
* Items are compared by a function that may fail. It need not be an order; only if it is one, the
  first item is a least one.
-/

namespace Bilevel

/-- The items of a heap, level by level. -/
abbrev Heap (β : Type) := Array β

namespace Heap

variable {β ε : Type} (less : β → β → Except ε Bool)

/-- The position above a position. -/
def parent (i : Nat) : Nat := (i - 1) / 2

/-- Swaps the item at position `i` with its parent as long as it is less. -/
def rise (h : Heap β) (i : Nat) : Except ε (Heap β) :=
  if 0 < i then
    match h[i]?, h[parent i]? with
    | some x, some y => do
      if ← less x y then rise (h.swapIfInBounds i (parent i)) (parent i) else return h
    | _, _ => return h
  else return h
termination_by i
decreasing_by
  simp only [parent]
  omega

/-- Swaps the item at position `i` with one of its children until it has none, and gives its last
position. The left child is taken only if it is less than the right one, or has none beside it. -/
def sink (h : Heap β) (i : Nat) : Except ε (Heap β × Nat) :=
  if 2 * i + 1 < h.size then
    match h[2 * i + 1]?, h[2 * i + 2]? with
    | some x, some y => do
      if ← less x y then sink (h.swapIfInBounds i (2 * i + 1)) (2 * i + 1)
      else sink (h.swapIfInBounds i (2 * i + 2)) (2 * i + 2)
    | _, _ => sink (h.swapIfInBounds i (2 * i + 1)) (2 * i + 1)
  else return (h, i)
termination_by h.size - i
decreasing_by all_goals
  simp only [Array.size_swapIfInBounds]
  omega

/-- Adds an item. -/
def push (h : Heap β) (x : β) : Except ε (Heap β) :=
  rise less (Array.push h x) h.size

/-- Takes out the first item. -/
def pop (h : Heap β) : Except ε (Option (β × Heap β)) :=
  match h[0]?, h.back? with
  | some first, some last =>
    if h.size = 1 then return some (first, #[])
    else do
      let (sunk, i) ← sink less ((Array.pop h).setIfInBounds 0 last) 0
      return some (first, ← rise less sunk i)
  | _, _ => return none

end Heap
end Bilevel
