import Bilevel.Datum.Basic

/-!
# Bilevel.Level

The two levels of a program: the leader's upper level and the follower's lower level.

* `Level.ofCode?` finds the level with a given code.
* `LevelArg` is what may stand where a level is asked for: a level itself, or a value of any other
  kind. A text is no level, whatever it says. Only where levels are written down a text stands for
  the level with this name (`LevelArg.ofDatum`).
-/

namespace Bilevel

/-- The leader's or the follower's level. -/
inductive Level where
  | lower
  | upper
  deriving Repr, DecidableEq

namespace Level

/-- The name under which a level is asked for. -/
def name : Level → String
  | lower => "LOWER"
  | upper => "UPPER"

def code : Level → Int
  | lower => 0
  | upper => 1

/-- The level in a sentence. -/
def text : Level → String
  | lower => "lower-level"
  | upper => "upper-level"

variable {α : Type}

/-- The level whose code a value equals. -/
def ofCode? [Scalar α] (d : Datum α) : Option Level :=
  [lower, upper].find? fun l => d.equalsInt l.code

@[simp] theorem ofCode?_code [Scalar α] (l : Level) :
    ofCode? (.int l.code : Datum α) = some l := by
  cases l <;> rfl

end Level

/-- What stands where a level is asked for. -/
inductive LevelArg (α : Type) where
  | member (level : Level)
  | other (value : Datum α)

namespace LevelArg

variable {α : Type}

/-- What is meant where levels are written by their names: a level, or the value as it is. -/
def ofDatum : Datum α → LevelArg α
  | .text s =>
    match [Level.lower, Level.upper].find? fun l => l.name = s with
    | some l => .member l
    | none => .other (.text s)
  | d => .other d

instance : Coe (Datum α) (LevelArg α) := ⟨ofDatum⟩

end LevelArg
end Bilevel
