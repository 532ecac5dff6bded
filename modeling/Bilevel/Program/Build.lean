import Bilevel.Program.Basic
import Bilevel.Request

/-!
# Bilevel.Program.Build

From loose arguments to a program.

* `Arguments` holds one value of any kind for each coefficient; `Arguments.ofRequest` takes
  them by name.
* `Program.build` converts the arguments group by group: objectives, lower constraints, upper
  constraints, quadratic term, and last the integer indices. The first group that does not fit is
  the one that is reported.
* Fresh bounds are zero and infinity.
-/

namespace Bilevel

/-- One value of any kind for each coefficient. Without `F` there is no quadratic term, and without
`Jx` no variable is integer. -/
structure Arguments (α : Type) where
  cx : Datum α
  cy : Datum α
  G : Datum α
  H : Datum α
  q : Datum α
  d : Datum α
  A : Datum α
  B : Datum α
  b : Datum α
  Jx : Datum α := .null
  F : Datum α := .null

namespace Arguments

variable {α : Type}

/-- The names of the arguments; all but the last two are needed. -/
def names : List String :=
  ["cx", "cy", "G", "H", "q", "d", "A", "B", "b", "Jx", "F"]

/-- Arguments by name, if none is unknown and none that is needed is missing. -/
def ofRequest (r : Request α) : Except (Fault α) (Arguments α) :=
  match r.known names, (names.take 9).mapM (fun name => r.lookup name) with
  | true, some [cx, cy, G, H, q, d, A, B, b] =>
    .ok { cx, cy, G, H, q, d, A, B, b, Jx := r.get "Jx" .null, F := r.get "F" .null }
  | _, _ => .error .arguments

end Arguments

namespace Tensor

variable {α : Type}

/-- A row without entries, taken as a matrix, has no rows of any width. -/
def asMatrix (t : Tensor α) (columns : Nat) : Tensor α :=
  if t.shape = [0] then ⟨[0, columns], []⟩ else t

/-- So many rows of one width, one after the other. -/
def slices (width : Nat) : Nat → List α → Rows α
  | 0, _ => []
  | count + 1, entries => entries.take width :: slices width count (entries.drop width)

/-- The rows of a matrix. -/
def rows (t : Tensor α) (count width : Nat) : Rows α :=
  slices width count t.entries

end Tensor

namespace Program

variable {α : Type} [Scalar α]

/-- An argument as an array. One that has no shape spoils its group. -/
def array (group : Group) (d : Datum α) : Except (Fault α) (Tensor α) :=
  match d.toTensor with
  | .ok t => .ok t
  | .error .malformed => .error (.mismatch group none)
  | .error why => .error (.conversion why)

/-- The length of an array that is a single row. -/
def rowLength? : Shape → Option Nat
  | [n] => some n
  | _ => none

/-- The objectives `cx`, `cy` and `d`: rows, the last two of one length. -/
def objectives (a : Arguments α) : Except (Fault α) (Row α × Row α × Row α) := do
  let cx ← array .objectives a.cx
  let cy ← array .objectives a.cy
  let d ← array .objectives a.d
  if cx.shape.length = 1 ∧ cy.shape.length = 1 ∧ d.shape = cy.shape then
    return (cx.entries, cy.entries, d.entries)
  else
    throw (.mismatch .objectives
      (some (.among [("cx", cx.shape), ("cy", cy.shape), ("d", d.shape)])))

/-- The constraints of one level: a right-hand side and a matrix for each level's variables. -/
def constraints (group : Group) (nu nl : Nat) (left right rhs : String × Datum α) :
    Except (Fault α) (Rows α × Rows α × Row α) := do
  let r ← array group rhs.2
  let m := (← array group left.2).asMatrix nu
  let n := (← array group right.2).asMatrix nl
  let misfit := Fault.mismatch group
    (some (.among [(left.1, m.shape), (right.1, n.shape), (rhs.1, r.shape)]))
  match rowLength? r.shape with
  | some k =>
    if m.shape = [k, nu] ∧ n.shape = [k, nl] then
      return (m.rows k nu, n.rows k nl, r.entries)
    else throw misfit
  | none => throw misfit

/-- The quadratic term; without one all its entries are zero. -/
def quadraticTerm (nu nl : Nat) (f : Datum α) : Except (Fault α) (Rows α) :=
  match f with
  | .null => return List.replicate nu (List.replicate nl Scalar.zero)
  | f => do
    let m := (← array .quadraticTerm f).asMatrix nl
    if m.shape = [nu, nl] then return m.rows nu nl
    else throw (.mismatch .quadraticTerm (some (.matrix "F" m.shape nu nl)))

/-- The items of a sequence. Nothing is a sequence without items. -/
def sequence : Datum α → Except (Fault α) (List (Datum α))
  | .null => return []
  | d =>
    match d.items? with
    | some items => return items
    | none => throw .notSequence

/-- The bounds of a fresh program: from zero to infinity. -/
def freshBox (n : Nat) : Box α :=
  ⟨List.replicate n Scalar.zero, List.replicate n Scalar.infinity⟩

/-- A program from loose arguments. -/
def build (a : Arguments α) : Except (Fault α) (Program α) := do
  let (cx, cy, d) ← objectives a
  let nu := cx.length
  let nl := cy.length
  let (A, B, b) ← constraints .lowerConstraints nu nl ("A", a.A) ("B", a.B) ("b", a.b)
  let (G, H, q) ← constraints .upperConstraints nu nl ("G", a.G) ("H", a.H) ("q", a.q)
  let F ← quadraticTerm nu nl a.F
  let Jx ← sequence a.Jx
  return { cx, cy, G, H, q, d, A, B, b, F, Jx, xBox := freshBox nu, yBox := freshBox nl }

end Program
end Bilevel
