import ShiftReduce.CommandLine.Options
import ShiftReduce.Input
import ShiftReduce.Text.Numeral

/-!
# Requests

The first free argument is the path of a table file, and the others are the
words of the input.  `--help` comes before everything but a fault in the
options.  Then the step limit is read, and then the path is asked for.
-/

namespace ShiftReduce.CommandLine

/-- A parse that is asked for. -/
structure Request where
  path : String
  inputWords : List String
  mode : Input.Mode
  printTables : Bool
  limit : Option Nat
deriving DecidableEq, Repr

/-- What a command line asks for. -/
inductive Command where
  | help
  | parse (request : Request)
deriving DecidableEq, Repr

/-- Why a command line asks for nothing that can be done. -/
inductive UsageError where
  | options (error : OptionError)
  | limit (fault : Numeral.Fault)
  | noTables
deriving DecidableEq, Repr

/-- The step limit is below this bound. -/
def limitBound : Nat := UInt64.size

/-- The step limit of a command line. -/
def readLimit (arguments : Arguments) : Except Numeral.Fault (Option Nat) :=
  match arguments.value? .maxSteps with
  | none => .ok none
  | some value => (Numeral.read limitBound value.toList).map some

/-- What a command line asks for, once its arguments are sorted. -/
def Command.ofSorted (arguments : Arguments) : Except UsageError Command :=
  if arguments.has .help then .ok .help
  else
    match readLimit arguments, arguments.free with
    | .error fault, _ => .error (.limit fault)
    | .ok _, [] => .error .noTables
    | .ok limit, path :: inputWords =>
      .ok (.parse
        { path, inputWords, limit
          mode := if arguments.has .characters then .characters else .words
          printTables := arguments.has .printTables })

/-- What a command line asks for, its options read by `options`. -/
def Command.ofArguments (options : OptionReader) (arguments : List String) :
    Except UsageError Command :=
  match options arguments with
  | .ok sorted => Command.ofSorted sorted
  | .error error => .error (.options error)

example : Command.ofArguments Arguments.read ["-h", "-n", "x"] = .ok .help := rfl

example : Command.ofArguments Arguments.read ["-n", "x"] = .error (.limit .invalidDigit) := rfl

end ShiftReduce.CommandLine
