import Bilevel.Datum.Basic
import Bilevel.Level
import Bilevel.Linear.Rows

/-!
# Bilevel.Program.Basic

Bilevel linear programs.

The leader chooses `x` and the follower answers with `y`:

    min  cx · x + cy · y
    with G x + H y ≤ q,   xl ≤ x ≤ xu,   x_j an integer for j in Jx,
         y a minimum of  d · y + x F y  with A x + B y ≤ b,  yl ≤ y ≤ yu.

* `Coefficients` never change; the two `Box`es of bounds can be changed.
* The numbers of variables and rows are read off `cx`, `cy`, `q` and `b`.
* `Program.Shaped` says that all other rows and matrices fit these numbers.
* Variables and the indices in `Jx` count from one.
-/

namespace Bilevel

/-- Everything about a program that never changes. -/
structure Coefficients (α : Type) where
  cx : Row α
  cy : Row α
  G : Rows α
  H : Rows α
  q : Row α
  d : Row α
  A : Rows α
  B : Rows α
  b : Row α
  F : Rows α
  /-- The indices of the integer variables, as they were handed in. -/
  Jx : List (Datum α)

/-- The two ends of a box of bounds. -/
inductive Side where
  | lower
  | upper
  deriving Repr, DecidableEq

/-- Lower and upper bounds, one of each for every variable of a level. -/
structure Box (α : Type) where
  lower : Row α
  upper : Row α

namespace Box

variable {α : Type}

def get (box : Box α) : Side → Row α
  | .lower => box.lower
  | .upper => box.upper

/-- Puts `v` at position `i` of one side. -/
def set (box : Box α) (side : Side) (i : Nat) (v : α) : Box α :=
  match side with
  | .lower => { box with lower := box.lower.set i v }
  | .upper => { box with upper := box.upper.set i v }

/-- Puts `v` at all positions of one side. -/
def fill (box : Box α) (side : Side) (v : α) : Box α :=
  match side with
  | .lower => { box with lower := box.lower.map fun _ => v }
  | .upper => { box with upper := box.upper.map fun _ => v }

@[simp] theorem get_set (box : Box α) (side : Side) (i : Nat) (v : α) :
    (box.set side i v).get side = (box.get side).set i v := by
  cases side <;> rfl

theorem get_set_of_ne (box : Box α) {side other : Side} (i : Nat) (v : α) (h : other ≠ side) :
    (box.set side i v).get other = box.get other := by
  cases side <;> cases other <;> simp_all [set, get]

end Box

/-- A bilevel linear program. -/
structure Program (α : Type) extends Coefficients α where
  /-- The bounds of the upper-level variables. -/
  xBox : Box α
  /-- The bounds of the lower-level variables. -/
  yBox : Box α

namespace Program

variable {α : Type}

/-- The number of upper-level variables. -/
def nu (p : Program α) : Nat := p.cx.length

/-- The number of lower-level variables. -/
def nl (p : Program α) : Nat := p.cy.length

/-- The number of upper-level rows. -/
def mu (p : Program α) : Nat := p.q.length

/-- The number of lower-level rows. -/
def ml (p : Program α) : Nat := p.b.length

def shape (p : Program α) : List Nat := [p.nu, p.nl, p.mu, p.ml]

/-- The number of variables of a level. -/
def size (p : Program α) : Level → Nat
  | .lower => p.nl
  | .upper => p.nu

/-- The bounds of a level. -/
def box (p : Program α) : Level → Box α
  | .lower => p.yBox
  | .upper => p.xBox

/-- A program with other bounds on one level. -/
def withBox (p : Program α) (level : Level) (box : Box α) : Program α :=
  match level with
  | .lower => { p with yBox := box }
  | .upper => { p with xBox := box }

@[simp] theorem box_withBox (p : Program α) (level : Level) (box : Box α) :
    (p.withBox level box).box level = box := by
  cases level <;> rfl

theorem box_withBox_of_ne (p : Program α) {level other : Level} (box : Box α)
    (h : other ≠ level) : (p.withBox level box).box other = p.box other := by
  cases level <;> cases other <;> simp_all [withBox, Program.box]

@[simp] theorem toCoefficients_withBox (p : Program α) (level : Level) (box : Box α) :
    (p.withBox level box).toCoefficients = p.toCoefficients := by
  cases level <;> rfl

/-- Whether there are integer variables. -/
def isMixedInteger (p : Program α) : Bool := !p.Jx.isEmpty

end Program

/-- The matrix `m` has `rows` rows of `columns` entries. -/
structure Rows.HasShape {α : Type} (m : Rows α) (rows columns : Nat) : Prop where
  length_eq : m.length = rows
  row_length : ∀ r ∈ m, r.length = columns

/-- All rows and matrices of the program fit its numbers of variables and rows. -/
structure Program.Shaped {α : Type} (p : Program α) : Prop where
  d_length : p.d.length = p.nl
  xl_length : p.xBox.lower.length = p.nu
  xu_length : p.xBox.upper.length = p.nu
  yl_length : p.yBox.lower.length = p.nl
  yu_length : p.yBox.upper.length = p.nl
  G_shape : Rows.HasShape p.G p.mu p.nu
  H_shape : Rows.HasShape p.H p.mu p.nl
  A_shape : Rows.HasShape p.A p.ml p.nu
  B_shape : Rows.HasShape p.B p.ml p.nl
  F_shape : Rows.HasShape p.F p.nu p.nl

end Bilevel
