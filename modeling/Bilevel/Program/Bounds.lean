import Bilevel.Fault
import Bilevel.Program.Basic

/-!
# Bilevel.Program.Bounds

Access to single bounds by level and index.

* `Program.locate` resolves a level and an index that counts from one; the level is checked before
  the index.
* `Program.setBound` changes one bound. The new value is looked at last, and it is not compared
  with the bound on the other side. `Program.setAll` changes those of all variables of a level.
* `Program.bounds` reads the two bounds of a variable.
-/

namespace Bilevel
namespace Program

variable {α : Type} [Scalar α]

/-- The level and the position that a level and an index name. -/
def locate (p : Program α) (level : LevelArg α) (index : Datum α) :
    Except (Fault α) (Level × Nat) :=
  match level with
  | .other got => throw (.notLevel got)
  | .member l =>
    match index with
    | .int j =>
      if 1 ≤ j ∧ j ≤ p.size l then return (l, (j - 1).toNat)
      else throw (.outOfRange l index (.int (p.size l)))
    | _ => throw (.notIndex index)

/-- The program with one bound changed. -/
def setBound (p : Program α) (side : Side) (level : LevelArg α) (index value : Datum α) :
    Except (Fault α) (Program α) := do
  let (l, i) ← p.locate level index
  match value.toScalar with
  | .ok v => return p.withBox l ((p.box l).set side i v)
  | .error why => throw (.conversion why)

/-- Sets the bounds on one side of all variables of a level, as if one after the other. If there are
none, the value is not looked at. -/
def setAll (p : Program α) (side : Side) (level : Level) (value : Datum α) :
    Except (Fault α) (Program α) :=
  if p.size level = 0 then return p
  else
    match value.toScalar with
    | .ok v => return p.withBox level ((p.box level).fill side v)
    | .error why => throw (.conversion why)

/-- The lower and the upper bound of a variable. -/
def bounds (p : Program α) (level : LevelArg α) (index : Datum α) :
    Except (Fault α) (α × α) := do
  let (l, i) ← p.locate level index
  match (p.box l).lower[i]?, (p.box l).upper[i]? with
  | some low, some high => return (low, high)
  | _, _ => throw .noEntry

end Program
end Bilevel
