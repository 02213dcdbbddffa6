import ShiftReduce.CommandLine.Output

/-!
# The program

Reads the table file that the command line names, and writes the output.  The
filter of the log is the value of an environment variable.  Complaints about it
go to the standard error, then the log, and then everything else.
-/

namespace ShiftReduce.Program

open CommandLine

/-- The first answer under an allowance that is doubled until there is one.
There is none if the run goes on forever. -/
partial def firstAnswer (answer : Nat → Option Output) (allowance : Nat) : IO Output :=
  match answer allowance with
  | some output => return output
  | none => firstAnswer answer (2 * allowance)

/-- The cause of a failure of the operating system. -/
def failureOf (error : IO.Error) : ReadFailure :=
  match error with
  | .noFileOrDirectory .. => .notFound
  | .inappropriateType _ 20 _ => .notADirectory
  | .inappropriateType _ 21 _ => .isADirectory
  | .invalidArgument _ 36 _ => .nameTooLong
  | other => .other (toString other)

/-- Reads a file as a text. -/
def readText (path : String) : IO (Except ReadFailure String) := do
  if '\u0000' ∈ path.toList then return .error .nulInPath
  try
    let bytes ← IO.FS.readBinFile path
    match String.fromUTF8? bytes with
    | some text => return .ok text
    | none => return .error .notUtf8
  catch error => return .error (failureOf error)

/-- Writes an output and gives its status. -/
def emit (output : Output) : IO UInt32 := do
  for complaint in output.complaints do
    IO.eprintln complaint.message
  for record in output.log do
    IO.eprintln record.line
  IO.print output.stdout
  IO.eprint output.stderr
  return output.status.code.toUInt32

/-- Answers a command line. -/
def run (invocation : Invocation) (arguments : List String) : IO UInt32 := do
  let reading := Log.Reading.ofText ((← IO.getEnv "RUST_LOG").getD "")
  let complaints := reading.complaints
  match Command.ofArguments invocation.options arguments with
  | .error error => emit { error.output invocation.program with complaints }
  | .ok .help => emit { helpOutput invocation.program with complaints }
  | .ok (.parse request) =>
    let content ← readText request.path
    let output ← firstAnswer (request.outputWithin reading.filter content) 1024
    emit { output with complaints }

end ShiftReduce.Program

def main (arguments : List String) : IO UInt32 := ShiftReduce.Program.run .standard arguments
