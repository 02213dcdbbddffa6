/-!
# Records

A *record* of the log has a level, a target, which names the part of the
program it is about, and a message.
-/

namespace ShiftReduce.Log

/-- How much a record matters. -/
inductive Level where
  | error
  | warn
  | info
  | debug
  | trace
deriving DecidableEq, Repr

namespace Level

/-- The place of a level, the most important one first. -/
def rank : Level → Nat
  | .error => 1
  | .warn => 2
  | .info => 3
  | .debug => 4
  | .trace => 5

/-- The level as it stands in a record. -/
def name : Level → String
  | .error => "ERROR"
  | .warn => "WARN"
  | .info => "INFO"
  | .debug => "DEBUG"
  | .trace => "TRACE"

end Level

/-- One message of the log. -/
structure Record where
  level : Level
  target : String
  message : String
deriving DecidableEq, Repr

/-- A record as a line.  The levels are as wide as the widest of them. -/
def Record.line (record : Record) : String :=
  let padding := String.ofList (List.replicate (5 - record.level.name.length) ' ')
  s!"[{record.level.name}{padding} {record.target}] {record.message}"

example : Record.line ⟨.info, "a", "b"⟩ = "[INFO  a] b" := by decide

end ShiftReduce.Log
