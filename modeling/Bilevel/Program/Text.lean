import Bilevel.Datum.Printer
import Bilevel.Program.Basic

/-!
# Bilevel.Program.Text

The text of a program.

* `Program.lines` writes it line by line: the upper objective, the upper rows, the bounds of the
  upper-level variables, the lower objective, the lower rows, the bounds of the lower-level
  variables.
* Terms with a zero coefficient are left out; a form without any term is written as zero.
* `Program.summary` names only the sizes and the integer indices.
-/

namespace Bilevel
namespace Program

variable {α : Type} [Scalar α]

/-- A coefficient times a product of variables. -/
def term (c : α) (factors : List (String × Nat)) : String :=
  Scalar.text c ++ String.join (factors.map fun (name, j) => "*" ++ name ++ toString (j + 1))

/-- A row of coefficients as the terms of its nonzero entries. -/
def terms (name : String) (cs : Row α) : List String :=
  cs.zipIdx.filterMap fun (c, j) => if Scalar.nonzero c then some (term c [(name, j)]) else none

/-- A linear form. -/
def form (name : String) (cs : Row α) : String :=
  match terms name cs with
  | [] => "0"
  | ts => " + ".intercalate ts

/-- One row of the constraints. -/
def rowText (m n : Row α) (rhs : α) : String :=
  form "x" m ++ " + " ++ form "y" n ++ " <= " ++ Scalar.text rhs

def rowTexts (m n : Rows α) (rhs : Row α) : List String :=
  (m.zip (n.zip rhs)).map fun (r, s, c) => rowText r s c

/-- The bounds of one variable. -/
def boundText (name : String) (j : Nat) (low high : α) : String :=
  name ++ toString (j + 1) ++ " ∈ [" ++ Scalar.text low ++ ", " ++ Scalar.text high ++ "]"

/-- Whether the variable at a position is an integer one. -/
def isInteger (p : Program α) (j : Nat) : Bool :=
  p.Jx.any fun d => d.equalsInt (j + 1)

/-- The terms of the quadratic term, row by row. -/
def quadraticTerms (m : Rows α) : List String :=
  m.zipIdx.flatMap fun (row, i) => row.zipIdx.filterMap fun (c, j) =>
    if Scalar.nonzero c then some (term c [("x", i), ("y", j)]) else none

/-- The bounds of all variables of a level. -/
def boundTexts (name : String) (box : Box α) : List String :=
  ((box.lower.zip box.upper).zipIdx).map fun ((low, high), j) => boundText name j low high

/-- The lines of the text. -/
def lines (p : Program α) : List String :=
  let marked := (boundTexts "x" p.xBox).zipIdx.map fun (s, j) =>
    if p.isInteger j then s ++ ", integer" else s
  ["min " ++ form "x" p.cx ++ " + " ++ form "y" p.cy] ++
  (rowTexts p.G p.H p.q).map ("\t" ++ ·) ++
  marked.map ("\t" ++ ·) ++
  ["\ty ∈ argmin " ++ " + ".intercalate (form "y" p.d :: quadraticTerms p.F)] ++
  (rowTexts p.A p.B p.b).map ("\t\t" ++ ·) ++
  (boundTexts "y" p.yBox).map ("\t\t" ++ ·)

/-- The text of a program; every line is ended. -/
def text (p : Program α) : String :=
  String.join (p.lines.map (· ++ "\n"))

/-- The sizes of a program and its integer indices. -/
def summary (p : Program α) : String :=
  "BilevelLP(nu=" ++ toString p.nu ++ ", nl=" ++ toString p.nl ++ ", mu=" ++ toString p.mu ++
    ", ml=" ++ toString p.ml ++ ", Jx=" ++ (Datum.list p.Jx).literal ++ ")"

end Program
end Bilevel
