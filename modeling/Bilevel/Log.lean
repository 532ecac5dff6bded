/-!
# Bilevel.Log

What is reported on the side while work goes on.
-/

namespace Bilevel

/-- How important a line is. -/
inductive Severity where
  | debug
  | info
  deriving Repr, DecidableEq

/-- One line of the log: its importance, who reports, and the text. -/
structure LogLine where
  severity : Severity
  reporter : String
  text : String
  deriving Repr, DecidableEq

/-- How a line is laid out when it is written to a file. -/
def LogLine.layout : String := "[%(name)s]: %(message)s"

/-- How a time is laid out when it is written to a file. -/
def LogLine.timeLayout : String := "%m.%d.%Y %H:%M:%S"

end Bilevel
