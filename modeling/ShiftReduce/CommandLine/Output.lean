import ShiftReduce.CommandLine.Request
import ShiftReduce.Log.Filter
import ShiftReduce.Run.Progress
import ShiftReduce.Run.Transcript
import ShiftReduce.TableFile.Load
import ShiftReduce.Tables.Listing

/-!
# Output

The output of a command line is an exit status, what is written to the standard
output and to the standard error, the log, and the complaints about its filter.
The complaints come first on the standard error, whatever the command line asks
for, and then the log.  The usage shows the name that the program is called by,
and the options are read by the reader that its invocation has.

A parse prints the tables if that is asked for, and then the transcript of its
run, whether the run accepts, fails or is given up.  A run is given up when its
limit is spent.  Without a limit the output is the one that a large enough
allowance gives.
-/

namespace ShiftReduce.CommandLine

/-- How a command line ended. -/
inductive ExitStatus where
  /-- The input is a sentence, or help was asked for. -/
  | success
  | rejected
  /-- The command line or the tables are at fault. -/
  | unusable
  /-- The limit was spent. -/
  | gaveUp
deriving DecidableEq, Repr

/-- The number of an exit status. -/
def ExitStatus.code : ExitStatus → Nat
  | .success => 0
  | .rejected => 1
  | .unusable => 2
  | .gaveUp => 3

/-- What a command line comes to. -/
structure Output where
  status : ExitStatus
  stdout : String := ""
  /-- What is written to the standard error, complaints and the log left out. -/
  stderr : String := ""
  log : List Log.Record := []
  complaints : List Log.Complaint := []
deriving DecidableEq, Repr

/-- What is written to the standard error, the log left out. -/
def Output.errorText (output : Output) : String :=
  String.join (output.complaints.map fun complaint => complaint.message ++ "\n") ++ output.stderr

/-! ## Without a parse -/

/-- The usage of the program with a name. -/
def usage (program : String) : String :=
  s!"Usage: {program} [options] TABLES [SYMBOL...]\n" ++
  "\n" ++
  "Options:\n" ++
  "    -c, --chars         Read every non-whitespace character of the input as\n" ++
  "                        one symbol\n" ++
  "    -p, --print-tables  Print the tables before parsing\n" ++
  "    -n, --max-steps N   Give up after N actions. Unbounded by default\n" ++
  "    -h, --help          Print this message\n"

/-- The output of a command line that asks for the usage. -/
def helpOutput (program : String) : Output := { status := .success, stdout := usage program }

/-- The output of a command line that asks for nothing that can be done. -/
def UsageError.output (program : String) : UsageError → Output
  | .options error => { status := .unusable, stderr := error.message ++ "\n" }
  | .limit fault => { status := .unusable, stderr := s!"invalid --max-steps: {fault.message}\n" }
  | .noTables => { status := .unusable, stdout := usage program }

/-! ## The log of a parse -/

/-- The target of the records about a parse. -/
def runTarget : String := "slrparse"

/-- The record of the start of a run. -/
def startRecord (input : List Symbol) : Log.Record :=
  ⟨.info, runTarget, s!"parsing {input.length} symbols"⟩

/-- The records of the steps of a run, from the stacks after them. -/
def stepRecords (visited : List (List State)) : List Log.Record :=
  visited.zipIdx 1 |>.map fun entry =>
    ⟨.trace, runTarget, s!"step {entry.2}: stack {stackText entry.1.reverse}"⟩

/-- The records that the filter keeps of the beginning of a parse. -/
def startLog (filter : Log.Filter) (tables : Tables) (input : List Symbol) : List Log.Record :=
  [TableFile.loadRecord tables, startRecord input].filter filter.keeps

/-- The records that the filter keeps of the steps of a run.  The stacks are
looked at only if its directives keep such records. -/
def stepLog (filter : Log.Filter) (tables : Tables) (run : Run) (allowance : Nat) :
    List Log.Record :=
  if filter.allows .trace runTarget then
    (stepRecords (run.visitedStacks tables allowance)).filter filter.keeps
  else []

/-! ## A parse -/

/-- The status of a parse whose run failed. -/
def failureStatus (error : ParseError) : ExitStatus :=
  if error.blamesInput then .rejected else .unusable

/-- The output of a run on an input. -/
def parseOutputWithin (filter : Log.Filter) (tables : Tables) (input : List Symbol)
    (limit : Option Nat) (allowance : Nat) : Option Output :=
  let log := startLog filter tables input
  match Run.start tables input with
  | .error error => some { status := .unusable, stderr := error.report ++ "\n", log }
  | .ok run =>
    let allowed := limit.getD allowance
    let progress := run.advance tables allowed
    let stdout := transcript tables progress.run.events
    let log := log ++ stepLog filter tables run allowed
    match progress.outcome with
    | .accepted => some { status := .success, stdout, log }
    | .failed error =>
      some { status := failureStatus error, stdout, stderr := error.report ++ "\n", log }
    | .running =>
      limit.map fun limit =>
        { status := .gaveUp, stdout, stderr := s!"gave up after {limit} steps\n", log }

/-- The input of a parse on loaded tables. -/
def Request.input (request : Request) (tables : Tables) : List Symbol :=
  Input.read request.mode tables.endMarker (" ".intercalate request.inputWords)

/-- What a parse on loaded tables prints before its run. -/
def Request.listing (request : Request) (tables : Tables) : String :=
  if request.printTables then tables.listing ++ "\n" else ""

/-- The output of a parse on loaded tables. -/
def Request.runWithin (request : Request) (filter : Log.Filter) (tables : Tables)
    (allowance : Nat) : Option Output :=
  (parseOutputWithin filter tables (request.input tables) request.limit allowance).map
    fun output => { output with stdout := request.listing tables ++ output.stdout }

/-- The output of a parse, from what reading its table file came to. -/
def Request.outputWithin (request : Request) (filter : Log.Filter)
    (content : Except ReadFailure String) (allowance : Nat) : Option Output :=
  match TableFile.load request.path content with
  | .ok tables => request.runWithin filter tables allowance
  | .error error => some { status := .unusable, stderr := error.message ++ "\n" }

/-! ## All command lines -/

/-- How the program is invoked, its arguments left out. -/
structure Invocation where
  /-- The name that the program is called by. -/
  program : String
  /-- The reader of its options. -/
  options : OptionReader

/-- The program under its own name, with the options as they are read here. -/
def Invocation.standard : Invocation := ⟨"slrparse", Arguments.read⟩

/-- The output of a command line, where `read` reads files and the filter of the
log is written as `log`. -/
def Invocation.outputWithin (invocation : Invocation)
    (read : String → Except ReadFailure String) (log : String) (arguments : List String)
    (allowance : Nat) : Option Output :=
  let reading := Log.Reading.ofText log
  let output :=
    match Command.ofArguments invocation.options arguments with
    | .error error => some (error.output invocation.program)
    | .ok .help => some (helpOutput invocation.program)
    | .ok (.parse request) => request.outputWithin reading.filter (read request.path) allowance
  output.map fun output => { output with complaints := reading.complaints }

/-- The output of a command line of the program under its own name. -/
def outputWithin : (String → Except ReadFailure String) → String → List String → Nat →
    Option Output :=
  Invocation.standard.outputWithin

end ShiftReduce.CommandLine
