import Bilevel.Program.Bounds
import Bilevel.Program.Feasible
import Bilevel.Program.Properties
import Bilevel.Program.Text

/-!
# Bilevel.Program.Session

Work with a program, one command after the other.

* `Command` is a question about a program or a change of one bound.
* `Program.perform` answers a command with a `Reply`, a fault, or both, and with what was logged,
  and gives the program afterwards. A command that fails leaves the program as it is.
-/

namespace Bilevel

/-- A question about a program, or a change. -/
inductive Command (α : Type) where
  | read (field : Field)
  | state
  | setBound (side : Side) (level : LevelArg α) (index value : Datum α)
  | bounds (level : LevelArg α) (index : Datum α)
  | text
  | summary
  | isMixedInteger
  | objective (level : Level) (x y : Datum α)
  | check (scope : Scope) (x y : Datum α) (eps : Option (Datum α))
  /-- Writes an entry of what a property returns, or adds one to the integer indices. -/
  | overwrite (field : Field) (value : Datum α) (entry : Nat := 0)

/-- The answer to a command. -/
structure Answer (α : Type) where
  reply : Option (Reply α) := none
  fault : Option (Fault α) := none
  log : List LogLine := []

namespace Answer

variable {α : Type}

def ok (r : Reply α) : Answer α :=
  { reply := some r }

/-- A reply or a fault. -/
def ofExcept : Except (Fault α) (Reply α) → Answer α
  | .ok r => { reply := some r }
  | .error f => { fault := some f }

end Answer

namespace Program

variable {α : Type} [Scalar α]

/-- All properties but the shape. -/
def state (p : Program α) : Reply α :=
  .record ((Field.all.filter (·.2 != .shape)).map fun (name, field) => (name, p.read field))

/-- The answer of a check: whether the point is accepted, and what was logged. -/
def checkAnswer : Except (Fault α) (Option (Rejection α)) × List LogLine → Answer α
  | (.ok verdict, log) => { reply := some (.flag verdict.isNone), log }
  | (.error f, log) => { fault := some f, log }

/-- Performs a command: its answer, and the program afterwards. -/
def perform (p : Program α) : Command α → Answer α × Program α
  | .read field => (.ok (p.read field), p)
  | .state => (.ok p.state, p)
  | .setBound side level index value =>
    match p.setBound side level index value with
    | .ok p' => (.ok (.boxes p'.xBox p'.yBox), p')
    | .error f => ({ reply := some (.boxes p.xBox p.yBox), fault := some f }, p)
  | .bounds level index =>
    (.ofExcept ((p.bounds level index).map fun (low, high) => .interval low high), p)
  | .text => (.ok (.text p.text), p)
  | .summary => (.ok (.text p.summary), p)
  | .isMixedInteger => (.ok (.flag p.isMixedInteger), p)
  | .objective level x y => (.ofExcept ((p.objective level x y).map .number), p)
  | .check scope x y eps => (checkAnswer ((p.pointCheck scope x y eps).outcome []), p)
  | .overwrite field value entry =>
    match p.overwrite field value entry with
    | .ok p' => (.ok (p'.read field), p')
    | .error f => ({ reply := some (p.read field), fault := some f }, p)

/-- The program after a sequence of commands. -/
def after (p : Program α) (commands : List (Command α)) : Program α :=
  commands.foldl (fun p c => (p.perform c).2) p

end Program
end Bilevel
