import Bilevel.Fault
import Bilevel.Linear.Rows
import Bilevel.Toll.Network

/-!
# Bilevel.Toll.Incidence

The equations of flow on a network: at every node, what leaves minus what enters is what is supplied
there.

* `TollNetwork.incidence` has a row for every node and a column for every arc, and
  `TollNetwork.supply` the right-hand sides.
* The row of a node is the integer as which it is written; negative ones are counted from the end
  (`TollNetwork.rowOf`).
* `TollNetwork.placeOf` says where the ends of an arc are entered. As long as all of them have rows,
  each row can be read off the arcs (`TollNetwork.incidenceRow`).
-/

namespace Bilevel
namespace TollNetwork

variable {α : Type}

/-- Whether an integer fits a word without a sign, but none with a sign. -/
def needsUnsigned (r : Int) : Bool :=
  Capacity.addressable < r && r ≤ 2 * Capacity.addressable + 1

/-- The row of an integer among `n` rows; negative ones are counted from the end. An integer that
needs a word without a sign cannot be a position at all. -/
def rowOf (n : Nat) (r : Int) : Except (Fault α) Nat :=
  if 0 ≤ r ∧ r < n then return r.toNat
  else if -n ≤ r ∧ r < 0 then return (n + r).toNat
  else if needsUnsigned r then throw (.capacity .unaddressable)
  else throw .noEntry

/-- A number below `n` has its own row. -/
theorem rowOf_natCast {n v : Nat} (h : v < n) : (rowOf n v : Except (Fault α) Nat) = .ok v := by
  rw [rowOf, if_pos ⟨by omega, by omega⟩]
  rfl

/-- Where the end of an arc is entered in the incidence matrix. -/
inductive Place where
  /-- In a row, in the column of the arc. -/
  | cell (row : Nat)
  /-- In all columns of the row that has the number of the arc. -/
  | line
  | nowhere
  deriving Repr, DecidableEq

/-- Where an end of the arc number `e` is entered in a matrix of `n` rows. A node that is written as
an integer has a row of its own. One that is written as yes or no has not: it selects all or nothing
of the row that has the number of the arc. No other node has a place. -/
def placeOf (n e : Nat) : Datum α → Except (Fault α) Place
  | .int r => do return .cell (← rowOf n r)
  | .bool b =>
    if e < n then return if b then .line else .nowhere
    else throw .noEntry
  | _ => throw .noEntry

/-- The rows of the two ends of an arc, if they have rows. -/
def cells? : Place × Place → Option (Nat × Nat)
  | (.cell a, .cell b) => some (a, b)
  | _ => none

variable [Scalar α]

/-- A row of the incidence matrix, from the rows of all arcs' ends: one for an arc that leaves the
node, minus one for an arc that enters it. -/
def incidenceRow (ends : List (Nat × Nat)) (v : Nat) : Row α :=
  ends.map fun (a, b) =>
    if b = v then Scalar.neg Scalar.one else if a = v then Scalar.one else Scalar.zero

@[simp] theorem length_incidenceRow (ends : List (Nat × Nat)) (v : Nat) :
    (incidenceRow ends v : Row α).length = ends.length := by
  simp [incidenceRow]

/-- Enters a number for an end of the arc number `e`. -/
def enter (e : Nat) (x : α) (rows : Rows α) : Place → Rows α
  | .cell r => rows.modify r (·.set e x)
  | .line => rows.modify e (·.map fun _ => x)
  | .nowhere => rows

/-- The incidence matrix, entered arc by arc: first the tail, then the head. -/
def incidenceByArcs (n : Nat) (places : List (Place × Place)) : Rows α :=
  places.zipIdx.foldl
    (fun rows ((a, b), e) => enter e (Scalar.neg Scalar.one) (enter e Scalar.one rows a) b)
    (List.replicate n (List.replicate places.length Scalar.zero))

/-- The incidence matrix of a network. -/
def incidence (t : TollNetwork α) : Except (Fault α) (Rows α) := do
  let n := t.graph.size
  let places ← t.arcNames.zipIdx.mapM fun ((a, b), e) => do
    return (← placeOf n e a, ← placeOf n e b)
  match places.mapM cells? with
  | some ends => return (List.range n).map (incidenceRow ends)
  | none => return incidenceByArcs n places

/-- What is left over at the nodes: the unit starts at the source and ends at the sink. -/
def supply (t : TollNetwork α) : Except (Fault α) (Row α) := do
  let n := t.graph.size
  let source ← rowOf n Network.start
  let sink ← rowOf n t.finish
  return (List.range n).map fun v =>
    if v = sink then Scalar.neg Scalar.one
    else if v = source then Scalar.one
    else Scalar.zero

end TollNetwork
end Bilevel
