import ShiftReduce.Files.Failure
import ShiftReduce.Tables.Declaration

/-!
# Faults of a table file

A table file is refused because it cannot be read, or because of the first of
its lines that is at fault.  Lines are counted from one.
-/

namespace ShiftReduce.TableFile

/-- A field that a line needs. -/
inductive Field where
  | endMarker
  | productionId
  | leftHandSide
  | rightHandSide
  | state
  | terminal
  | action
  | nonTerminal
  | gotoState
deriving DecidableEq, Repr

/-- The field in words. -/
def Field.description : Field → String
  | .endMarker => "end-marker"
  | .productionId => "production id"
  | .leftHandSide => "left-hand side"
  | .rightHandSide => "`->` or right-hand side length"
  | .state => "state"
  | .terminal => "terminal"
  | .action => "action"
  | .nonTerminal => "non-terminal"
  | .gotoState => "goto state"

/-- What is wrong with a line. -/
inductive LineError where
  | unknownDirective (word : String)
  /-- The line ends, or its comment starts, before the field. -/
  | missingField (field : Field)
  /-- The word is not a 32-bit number. -/
  | invalidNumber (word : String)
  | invalidAction (word : String)
  /-- A word follows the last field, and it starts no comment. -/
  | extraField (word : String)
  | table (error : TableError)
deriving DecidableEq, Repr

/-- What is wrong, in words. -/
def LineError.message : LineError → String
  | .unknownDirective word => s!"unknown directive `{word}`"
  | .missingField field => s!"missing {field.description}"
  | .invalidNumber word => s!"invalid number `{word}`"
  | .invalidAction word => s!"invalid action `{word}`"
  | .extraField word => s!"unexpected `{word}`"
  | .table error => error.message

/-- Why a table file was refused. -/
inductive LoadError where
  | unreadable (path : String) (reason : ReadFailure)
  | line (number : Nat) (error : LineError)
deriving DecidableEq, Repr

/-- The refusal in words. -/
def LoadError.message : LoadError → String
  | .unreadable path reason => s!"cannot read {path}: {reason.message}"
  | .line number error => s!"line {number}: {error.message}"

end ShiftReduce.TableFile
