/-! # Log entries

What a session tells besides its output. Faults are told at every level, warnings from level one on.
-/

namespace Pinout.Session

inductive Severity where
  | critical
  | warning
deriving Repr, DecidableEq

structure LogEntry where
  severity : Severity
  text : String
deriving Repr, DecidableEq

namespace Severity

def label : Severity → String
  | critical => "CRITICAL"
  | warning => "WARNING"

/-- The least log level at which entries are shown. -/
def level : Severity → Nat
  | critical => 0
  | warning => 1

end Severity

def LogEntry.line (entry : LogEntry) : String :=
  entry.severity.label ++ ": " ++ entry.text

def shownLines (level : Nat) (entries : List LogEntry) : List String :=
  (entries.filter fun entry => entry.severity.level ≤ level).map (·.line)

end Pinout.Session
