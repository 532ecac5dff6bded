import Bilevel.Program.Bounds
import Bilevel.Program.Build
import Bilevel.Toll.Incidence

/-!
# Bilevel.Toll.Program

Toll setting as a bilevel program: the leader charges for some arcs of a network, and the follower
sends one unit of flow from the source to the sink as cheaply as possible.

* The upper-level variables are the tolls, whose sum stays within a budget; the lower-level
  variables are the flows on the arcs, between zero and one.
* Conservation of flow at every node is an equation (`TollNetwork.incidence` and
  `TollNetwork.supply`); it is written as two rows, the second with all signs turned round.
* The follower pays weights and tolls, and the quadratic term picks the arcs that are charged. The
  leader minimises the weights alone: tolls steer the follower and are no income.
-/

namespace Bilevel
namespace TollNetwork

variable {α : Type} [Scalar α]

/-- For each position the row that has one there, and zero elsewhere. -/
def units (length : Nat) (positions : List Nat) : Rows α :=
  let zeros := List.replicate length Scalar.zero
  positions.map fun i => zeros.set i Scalar.one

/-- The coefficients of the program of a network, from its equations. -/
def arguments (t : TollNetwork α) (rows : Rows α) (rhs : Row α) (budget : Datum α)
    (integerTolls : Bool) : Arguments α :=
  let m := t.arcNames.length
  let k := t.tolled.length
  let weights := t.weights.map Scalar.ofNat
  { cx := .vector (List.replicate k Scalar.zero)
    cy := .vector weights
    G := .matrix [List.replicate k Scalar.one]
    H := .matrix [List.replicate m Scalar.zero]
    q := .list [budget]
    d := .vector weights
    A := .matrix (List.replicate (2 * t.graph.size) (List.replicate k Scalar.zero))
    B := .matrix (rows ++ rows.map (·.map Scalar.neg))
    b := .vector (rhs ++ rhs.map Scalar.neg)
    Jx := if integerTolls then .upTo k else .null
    F := .matrix (units m t.tolled) }

/-- The program of a network. All flows are bounded by one. -/
def program (t : TollNetwork α) (budget : Datum α) (integerTolls : Bool) :
    Except (Fault α) (Program α) := do
  let rows ← t.incidence
  let rhs ← t.supply
  let fresh ← Program.build (t.arguments rows rhs budget integerTolls)
  fresh.setAll .upper .lower (.real Scalar.one)

end TollNetwork
end Bilevel
