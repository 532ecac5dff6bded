import Bilevel.Program.Session
import Bilevel.Toll.Flow
import Bilevel.Toll.Request

/-!
# Bilevel.Toll.Session

Work with a toll setting, one command after the other.

* `TollCommand` is a command for the program of the setting, or a question about its network.
-/

namespace Bilevel

/-- A command for a toll setting. -/
inductive TollCommand (α : Type) where
  | program (command : Command α)
  | start
  | finish
  | tolledArcs
  /-- The arcs with their numbers, in order. -/
  | arcNumbers
  /-- The numbers with their arcs, in order. -/
  | numberedArcs
  | pathToFlow (path : Datum α)
  | shortestPathFlow (tolls : Option (Datum α))

namespace TollSetting

variable {α : Type} [Scalar α]

/-- A list of values for each arc. -/
def arcTable (arcs : List (Datum α × Datum α))
    (entry : Datum α → Datum α → Datum α → List (Datum α)) : Reply α :=
  .table (arcs.zipIdx.map fun ((u, v), e) => entry (.int e) u v)

/-- Performs a command: its answer, and the setting afterwards. -/
def perform (s : TollSetting α) : TollCommand α → Answer α × TollSetting α
  | .program command =>
    let (answer, program) := s.program.perform command
    (answer, { s with program })
  | .start => (.ok (.integer Network.start), s)
  | .finish => (.ok (.integer s.network.finish), s)
  | .tolledArcs => (.ok (arcTable s.network.tolledArcs fun _ u v => [u, v]), s)
  | .arcNumbers => (.ok (arcTable s.network.arcNames fun e u v => [u, v, e]), s)
  | .numberedArcs => (.ok (arcTable s.network.arcNames fun e u v => [e, u, v]), s)
  | .pathToFlow path => (.ofExcept ((s.network.pathToFlow path).map .row), s)
  | .shortestPathFlow tolls => (.ofExcept ((s.network.shortestPathFlow tolls).map .row), s)

end TollSetting
end Bilevel
