import Bilevel.Fault
import Bilevel.Program.Basic

/-!
# Bilevel.Program.Properties

The properties of a program, and what becomes of the arrays that they return.

* `Field` names a property, and `Program.read` gives its value.
* `Program.lend` is what the property returns. For coefficients this is the very array that the
  program keeps, and it is locked; bounds and integer indices are copied before they are handed out.
* `Lent.write` writes an entry of what was returned. With an array of its own the program is written,
  too (`Program.overwrite`). It makes no difference when this is done: a copy is never looked at
  again, and an array of its own the program has only one of.
-/

namespace Bilevel

/-- The properties of a program. -/
inductive Field where
  | cx | cy | G | H | q | d | A | B | b | F
  | xl | xu | yl | yu
  | Jx
  | nu | nl | mu | ml | shape
  deriving Repr, DecidableEq

namespace Field

/-- All properties by their names. -/
def all : List (String × Field) :=
  [("cx", cx), ("cy", cy), ("G", G), ("H", H), ("q", q), ("d", d), ("A", A), ("B", B), ("b", b),
   ("F", F), ("xl", xl), ("xu", xu), ("yl", yl), ("yu", yu), ("Jx", Jx), ("nu", nu), ("nl", nl),
   ("mu", mu), ("ml", ml), ("shape", shape)]

def ofName? (name : String) : Option Field :=
  all.lookup name

end Field

/-- What a question is answered with. -/
inductive Reply (α : Type) where
  | flag (b : Bool)
  | number (x : α)
  | count (n : Nat)
  | counts (ns : List Nat)
  | integer (n : Int)
  | table (rows : List (List (Datum α)))
  | text (s : String)
  | row (xs : Row α)
  | matrix (rows columns : Nat) (m : Rows α)
  | data (ds : List (Datum α))
  | interval (low high : α)
  | boxes (x y : Box α)
  | record (fields : List (String × Reply α))

/-- What a property returns. -/
structure Lent (α : Type) where
  content : Reply α
  /-- Whether it is an array that the program itself keeps. -/
  own : Bool
  /-- Whether it refuses to be written. -/
  locked : Bool

variable {α : Type} [Scalar α]

/-- Writes an entry, counted from zero and in a matrix row by row. It has to be there, and the value has
to be a number. A list of indices takes any value at its end. -/
def Reply.write (value : Datum α) (entry : Nat) : Reply α → Except (Fault α) (Reply α)
  | .row xs =>
    if entry < xs.length then
      match value.toScalar with
      | .ok v => return .row (xs.set entry v)
      | .error why => throw (.conversion why)
    else throw .noEntry
  | .matrix rows columns m =>
    if entry < rows * columns then
      match value.toScalar with
      | .ok v =>
        return .matrix rows columns (m.modify (entry / columns) (·.set (entry % columns) v))
      | .error why => throw (.conversion why)
    else throw .noEntry
  | .data ds => return .data (ds ++ [value])
  | _ => throw .noItems

/-- Writes an entry of what a property returned. -/
def Lent.write (lent : Lent α) (value : Datum α) (entry : Nat) : Except (Fault α) (Lent α) :=
  if lent.locked then throw .readOnly
  else do return { lent with content := ← lent.content.write value entry }

namespace Program

omit [Scalar α] in
/-- The value of a property. -/
def read (p : Program α) : Field → Reply α
  | .cx => .row p.cx
  | .cy => .row p.cy
  | .q => .row p.q
  | .d => .row p.d
  | .b => .row p.b
  | .xl => .row p.xBox.lower
  | .xu => .row p.xBox.upper
  | .yl => .row p.yBox.lower
  | .yu => .row p.yBox.upper
  | .G => .matrix p.mu p.nu p.G
  | .H => .matrix p.mu p.nl p.H
  | .A => .matrix p.ml p.nu p.A
  | .B => .matrix p.ml p.nl p.B
  | .F => .matrix p.nu p.nl p.F
  | .Jx => .data p.Jx
  | .nu => .count p.nu
  | .nl => .count p.nl
  | .mu => .count p.mu
  | .ml => .count p.ml
  | .shape => .counts p.shape

/-- What a property returns: an array of the program itself, locked, or a copy. -/
def lend (p : Program α) (field : Field) : Lent α :=
  match field with
  | .cx | .cy | .G | .H | .q | .d | .A | .B | .b | .F =>
    { content := p.read field, own := true, locked := true }
  | .xl | .xu | .yl | .yu | .Jx | .nu | .nl | .mu | .ml | .shape =>
    { content := p.read field, own := false, locked := false }

/-- The program whose own array, the one that a property reads, has come to hold something else. -/
def store (p : Program α) (field : Field) (content : Reply α) : Program α :=
  match field, content with
  | .cx, .row xs => { p with cx := xs }
  | .cy, .row xs => { p with cy := xs }
  | .q, .row xs => { p with q := xs }
  | .d, .row xs => { p with d := xs }
  | .b, .row xs => { p with b := xs }
  | .xl, .row xs => { p with xBox := { p.xBox with lower := xs } }
  | .xu, .row xs => { p with xBox := { p.xBox with upper := xs } }
  | .yl, .row xs => { p with yBox := { p.yBox with lower := xs } }
  | .yu, .row xs => { p with yBox := { p.yBox with upper := xs } }
  | .G, .matrix _ _ m => { p with G := m }
  | .H, .matrix _ _ m => { p with H := m }
  | .A, .matrix _ _ m => { p with A := m }
  | .B, .matrix _ _ m => { p with B := m }
  | .F, .matrix _ _ m => { p with F := m }
  | .Jx, .data ds => { p with Jx := ds }
  | _, _ => p

/-- The program after an entry of what a property returned has been written. -/
def overwrite (p : Program α) (field : Field) (value : Datum α) (entry : Nat) :
    Except (Fault α) (Program α) := do
  let lent ← (p.lend field).write value entry
  return if lent.own then p.store field lent.content else p

end Program
end Bilevel
