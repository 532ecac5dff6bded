import Bilevel.Datum.Printer
import Bilevel.Datum.Tensor
import Bilevel.Graph.Fault
import Bilevel.Level

/-!
# Bilevel.Fault

What can go wrong, by its cause.

* `Fault` lists the causes.
* `Fault.message?` is the text of those that are explained in words.
-/

namespace Bilevel

/-- The groups of coefficients, in the order in which they are checked. -/
inductive Group where
  | objectives
  | lowerConstraints
  | upperConstraints
  | quadraticTerm
  deriving Repr, DecidableEq

def Group.text : Group → String
  | .objectives => "Objectives"
  | .lowerConstraints => "Lower constraints"
  | .upperConstraints => "Upper constraints"
  | .quadraticTerm => "Quadratic term"

/-- The shapes that do not fit. -/
inductive Misfit where
  /-- Coefficients whose shapes contradict each other. -/
  | among (shapes : List (String × Shape))
  /-- One matrix that should have had another shape. -/
  | matrix (name : String) (found : Shape) (rows columns : Nat)
  deriving Repr, DecidableEq

def Misfit.text : Misfit → String
  | .among shapes => ", ".intercalate (shapes.map fun (name, s) => name ++ ": " ++ s.text)
  | .matrix name found rows columns =>
    name ++ ": " ++ found.text ++ ", expected " ++ Shape.text [rows, columns]

/-- Why something could not be done. -/
inductive Fault (α : Type) where
  /-- Arguments that are missing or unknown. -/
  | arguments
  /-- A sequence with more or fewer items than are needed. -/
  | itemCount
  /-- A group of coefficients that do not fit; without shapes if one of them has none. -/
  | mismatch (group : Group) (misfit : Option Misfit)
  /-- A group of coefficients, named loosely, that do not fit. -/
  | namedMismatch (group details : Datum α)
  /-- A value that is no array of numbers, or no number. -/
  | conversion (why : ConversionFault)
  /-- A value that holds no sequence of indices. -/
  | notSequence
  /-- A value that names no level. -/
  | notLevel (got : Datum α)
  /-- A value that is no index. -/
  | notIndex (got : Datum α)
  /-- A value that names no level where a level's name is to be written. -/
  | nameless
  /-- An index without a variable. -/
  | outOfRange (level : Level) (index : Datum α) (size : Datum α)
  /-- A point with the wrong number of coordinates. -/
  | wrongSize (x y : Shape) (nu nl : Nat)
  /-- An integer index without an upper-level variable. -/
  | integerIndex (got : Datum α) (nu : Nat)
  /-- Values that cannot be compared. -/
  | notComparable
  /-- A number between two positions, or written like one, used as a position. -/
  | notPosition
  /-- A number without a nearest integer. -/
  | notRoundable
  /-- Coefficients cannot be written. -/
  | readOnly
  /-- There is no entry to write. -/
  | noEntry
  /-- A property that holds no entries at all. -/
  | noItems
  /-- A value that is no number of entries. -/
  | notCount
  /-- A negative number of entries. -/
  | negativeCount
  /-- An array with more dimensions or entries than can be addressed. -/
  | oversized
  /-- More items than a sequence can hold. -/
  | capacity (why : CapacityFault)
  /-- A source that cannot be drawn from. -/
  | notDrawable
  /-- A range without any integer. -/
  | emptyRange
  /-- A graph, a network or a path that does not exist. -/
  | graph (why : GraphFault)
  /-- More tolled arcs than arcs, or fewer than none. -/
  | tollCount (asked : Datum α) (arcs : Nat)
  /-- A pair of nodes that is no arc. -/
  | unknownArc
  /-- A value that cannot be a node. -/
  | notNode
  /-- A value that is no sequence of nodes. -/
  | notPath
  /-- Fewer tolls than tolled arcs. -/
  | missingToll

namespace Fault

/-- The sentence about a group of coefficients, with the details in brackets if there are any. -/
def mismatchText (group details : String) : String :=
  "Dimension mismatch: " ++ group ++ (if details.isEmpty then "" else " (" ++ details ++ ")")

variable {α : Type} [Scalar α]

/-- The fault about a group of coefficients, from a sequence of its name and perhaps some
details. -/
def ofGroup (d : Datum α) : Fault α :=
  match d.items? with
  | some [group] => .namedMismatch group .null
  | some [group, details] => .namedMismatch group details
  | _ => .arguments

/-- The fault about an index, from a sequence of its level, the index and the number of
variables. -/
def ofIndex (d : Datum α) : Fault α :=
  match d.items? with
  | some [level, index, size] =>
    match LevelArg.ofDatum level with
    | .member l => .outOfRange l index size
    | .other _ => .nameless
  | some _ => .itemCount
  | none => .arguments

/-- The explanation of a fault, for those that have one. -/
def message? : Fault α → Option String
  | namedMismatch group details =>
    some (mismatchText group.shown (if details.truthy then details.shown else ""))
  | mismatch group (some misfit) => some (mismatchText group.text misfit.text)
  | notLevel got => some ("Expected VariableType, got " ++ got.literal)
  | notIndex got => some ("Index of a variable must be an integer, got " ++ got.literal)
  | outOfRange level index size =>
    some ("Index " ++ index.shown ++ " is out of range [1, " ++ size.shown ++ "] for " ++
      level.text ++ " variables")
  | wrongSize x y nu nl =>
    some ("Point of wrong size: x: " ++ x.text ++ ", y: " ++ y.text ++ ", expected (" ++
      toString nu ++ ",), (" ++ toString nl ++ ",)")
  | integerIndex got nu =>
    some ("Integer index " ++ got.shown ++ " is out of range [1, " ++ toString nu ++ "]")
  | tollCount asked arcs =>
    some ("Cannot toll " ++ asked.shown ++ " of " ++ toString arcs ++ " arcs")
  | _ => none

end Fault
end Bilevel
