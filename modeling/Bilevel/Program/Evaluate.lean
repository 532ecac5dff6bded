import Bilevel.Fault
import Bilevel.Program.Basic

/-!
# Bilevel.Program.Evaluate

The two objectives of a program at a point.

* `Program.point` converts the coordinates of both levels and checks their number.
* `upperObjective` is `cx · x + cy · y`, `lowerObjective` is `d · y + x F y`.
-/

namespace Bilevel
namespace Program

open Linear

variable {α : Type} [Scalar α]

/-- Coordinates as an array. -/
def coordinates (d : Datum α) : Except (Fault α) (Tensor α) :=
  match d.toTensor with
  | .ok t => return t
  | .error why => throw (.conversion why)

/-- A point of the program: one coordinate for each variable of the two levels. -/
def point (p : Program α) (x y : Datum α) : Except (Fault α) (Row α × Row α) := do
  let x ← coordinates x
  let y ← coordinates y
  if x.shape = [p.nu] ∧ y.shape = [p.nl] then return (x.entries, y.entries)
  else throw (.wrongSize x.shape y.shape p.nu p.nl)

/-- The leader's objective. -/
def upperValue (p : Program α) (x y : Row α) : α :=
  Scalar.add (dot p.cx x) (dot p.cy y)

/-- The follower's objective. -/
def lowerValue (p : Program α) (x y : Row α) : α :=
  Scalar.add (dot p.d y) (dot (combine p.nl x p.F) y)

/-- A level's objective at a point. -/
def objective (p : Program α) (level : Level) (x y : Datum α) : Except (Fault α) α := do
  let (x, y) ← p.point x y
  match level with
  | .upper => return p.upperValue x y
  | .lower => return p.lowerValue x y

end Program
end Bilevel
