import Bilevel.Log
import Bilevel.Program.Evaluate
import Bilevel.Program.Tolerance

/-!
# Bilevel.Program.Feasible

Whether a point is feasible, up to a tolerance.

* A check ends in a fault, in a `Rejection` that names the first family of conditions that fails,
  or in nothing: then the point is accepted. It writes its log while it runs (`Checking`).
* The upper level has rows, bounds and integer variables, checked in this order; the lower level
  has rows and bounds. Whether the follower's answer is a best one is not checked.
* A comparison with an undefined number fails, and so does the condition it stands for; only the
  distance to the nearest integer is compared the other way round.
-/

namespace Bilevel

open Scalar Linear

variable {α : Type} [Scalar α]

/-- The first family of conditions that a point fails. -/
inductive Rejection (α : Type) where
  | upperRows
  | upperBounds
  /-- An integer variable, by its index as it was handed in, and its value. -/
  | fractional (index : Datum α) (value : α)
  | lowerRows
  | lowerBounds

/-- The sentence about a rejection. -/
def Rejection.text : Rejection α → String
  | .upperRows => "Upper constraints are violated."
  | .upperBounds => "Bounds of upper-level variables are violated."
  | .fractional index value =>
    "x" ++ index.shown ++ " = " ++ Scalar.text value ++ " is not integer."
  | .lowerRows => "Lower constraints are violated."
  | .lowerBounds => "Bounds of lower-level variables are violated."

/-- The log line about a rejection. -/
def Rejection.logLine (r : Rejection α) : LogLine :=
  ⟨.debug, "BilevelTools", r.text⟩

/-- A check at work: it may fail, and it logs lines as it goes. -/
abbrev Checking (α β : Type) := ExceptT (Fault α) (StateM (List LogLine)) β

namespace Checking

variable {β : Type}

/-- What a check comes to, and the log after it. -/
def outcome (c : Checking α β) (log : List LogLine) : Except (Fault α) β × List LogLine :=
  (c.run log).run

/-- What a check comes to. -/
def verdict (c : Checking α β) : Except (Fault α) β :=
  (c.outcome []).1

/-- One check, and if it accepts another one. -/
def andThen (c d : Checking α (Option (Rejection α))) : Checking α (Option (Rejection α)) := do
  match ← c with
  | some r => return some r
  | none => d

end Checking

/-- Rejects a point: a line is logged. -/
def reject (r : Rejection α) : Checking α (Option (Rejection α)) := do
  modify (· ++ [r.logLine])
  return some r

/-- What a check is about. -/
inductive Scope where
  | upper
  | lower
  | both
  deriving Repr, DecidableEq

namespace Program

/-- How far each row of `m x + n y` exceeds its right-hand side. -/
def excess (m n : Rows α) (rhs : Row α) (x y : Row α) : Row α :=
  ((apply m x).zip ((apply n y).zip rhs)).map fun (a, b, c) => sub (add a b) c

/-- Whether each coordinate is inside its bounds, up to the tolerance. -/
def boundsHold (box : Box α) (v : Row α) (eps : α) : Bool :=
  ((v.zip box.lower).all fun (a, low) => le (neg eps) (sub a low)) &&
  ((v.zip box.upper).all fun (a, high) => le (sub a high) eps)

/-- Checks that every integer index belongs to a variable. -/
def indicesInRange (nu : Nat) : List (Datum α) → Except (Fault α) Unit
  | [] => return
  | j :: rest =>
    match j.between? 1 nu with
    | none => throw .notComparable
    | some false => throw (.integerIndex j nu)
    | some true => indicesInRange nu rest

/-- The position of an index that lies in range. -/
def position? : Datum α → Option Nat
  | .bool b => some (b.toNat - 1)
  | .int j => some (j - 1).toNat
  | _ => none

/-- Looks for the first integer variable that is farther from an integer than the tolerance. -/
def integerCheck (x : Row α) (eps : α) : List (Datum α) → Checking α (Option (Rejection α))
  | [] => return none
  | j :: rest =>
    match (position? j).bind fun i => x[i]? with
    | none => throw .notPosition
    | some v =>
      match distance? v with
      | none => throw .notRoundable
      | some far => if lt eps far then reject (.fractional j v) else integerCheck x eps rest

/-- Checks the upper level at a point. -/
def upperCheck (p : Program α) (x y : Row α) (eps : Option (Datum α)) :
    Checking α (Option (Rejection α)) := do
  indicesInRange p.nu p.Jx
  let tolerance ← Tolerance.ofRequest eps
  if !(← tolerance.holds (excess p.G p.H p.q x y)) then reject .upperRows
  else
    let eps ← tolerance.toNumber
    if !boundsHold p.xBox x eps then reject .upperBounds
    else integerCheck x eps p.Jx

/-- Checks the lower level at a point. -/
def lowerCheck (p : Program α) (x y : Row α) (eps : Option (Datum α)) :
    Checking α (Option (Rejection α)) := do
  let tolerance ← Tolerance.ofRequest eps
  if !(← tolerance.holds (excess p.A p.B p.b x y)) then reject .lowerRows
  else
    let eps ← tolerance.toNumber
    if !boundsHold p.yBox y eps then reject .lowerBounds
    else return none

/-- Checks a point. Where both levels are asked for, the lower one is looked at only if the upper one
accepts. -/
def pointCheck (p : Program α) (scope : Scope) (x y : Datum α) (eps : Option (Datum α)) :
    Checking α (Option (Rejection α)) := do
  let (x, y) ← p.point x y
  match scope with
  | .upper => p.upperCheck x y eps
  | .lower => p.lowerCheck x y eps
  | .both => (p.upperCheck x y eps).andThen (p.lowerCheck x y eps)

/-- What becomes of the integer variables at a point. -/
def firstFractional (x : Row α) (eps : α) (J : List (Datum α)) :
    Except (Fault α) (Option (Rejection α)) :=
  (integerCheck x eps J).verdict

/-- What becomes of the upper level at a point. -/
def upperVerdict (p : Program α) (x y : Row α) (eps : Option (Datum α)) :
    Except (Fault α) (Option (Rejection α)) :=
  (p.upperCheck x y eps).verdict

/-- What becomes of the lower level at a point. -/
def lowerVerdict (p : Program α) (x y : Row α) (eps : Option (Datum α)) :
    Except (Fault α) (Option (Rejection α)) :=
  (p.lowerCheck x y eps).verdict

/-- What becomes of a point. -/
def check (p : Program α) (scope : Scope) (x y : Datum α) (eps : Option (Datum α)) :
    Except (Fault α) (Option (Rejection α)) :=
  (p.pointCheck scope x y eps).verdict

end Program
end Bilevel
