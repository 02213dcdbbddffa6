/-!
# Options

The arguments of the command line are options and free arguments, in any order.
An option has a letter and a name.

* `-c` gives an option by its letter.  Letters may be grouped, as in `-cp`.  An
  option with a value takes the rest of its group, or else the next argument,
  whatever that is.
* `--name` gives an option by its name, and `--name=value` also gives its value,
  from the first `=` on.  A name of one character is a letter.
* `--` ends the options.  All arguments after it are free.
* A lone `-` and the empty argument are free.

Arguments are read from the left, and the first one at fault is reported.  Only
when all are read is an option reported that was given more than once.

A command line can be read in other ways, so what uses sorted arguments takes an
`OptionReader`.  `Arguments.read` is the one described here.
-/

namespace ShiftReduce.CommandLine

/-- An option. -/
inductive Flag where
  /-- Every character of the input is a symbol. -/
  | characters
  | printTables
  | maxSteps
  | help
deriving DecidableEq, Repr

namespace Flag

/-- All options, in the order of the usage. -/
def all : List Flag := [.characters, .printTables, .maxSteps, .help]

/-- The letter of an option. -/
def letter : Flag → Char
  | .characters => 'c'
  | .printTables => 'p'
  | .maxSteps => 'n'
  | .help => 'h'

/-- The name of an option. -/
def name : Flag → String
  | .characters => "chars"
  | .printTables => "print-tables"
  | .maxSteps => "max-steps"
  | .help => "help"

/-- Whether an option takes a value. -/
def takesValue : Flag → Bool
  | .maxSteps => true
  | _ => false

/-- The option with a letter. -/
def ofLetter? (c : Char) : Option Flag := all.find? fun flag => flag.letter = c

/-- The option with a name, or with a letter if the name is one. -/
def ofName? (name : List Char) : Option Flag :=
  match name with
  | [c] => ofLetter? c
  | _ => all.find? fun flag => flag.name = String.ofList name

end Flag

/-- Why the options were refused.  Options are named as they were written, but
for the last case. -/
inductive OptionError where
  | unrecognized (written : String)
  | missingValue (written : String)
  /-- An option has a value that it does not take. -/
  | unexpectedValue (written : String)
  | repeated (flag : Flag)
deriving DecidableEq, Repr

/-- The refusal in words. -/
def OptionError.message : OptionError → String
  | .unrecognized written => s!"Unrecognized option: '{written}'"
  | .missingValue written => s!"Argument to option '{written}' missing"
  | .unexpectedValue written => s!"Option '{written}' does not take an argument"
  | .repeated flag => s!"Option '{flag.name}' given more than once"

/-! ## One argument -/

/-- What one argument says. -/
inductive Reading where
  | free
  | endOfOptions
  /-- It gives options, with the value of the last one if that takes one. -/
  | given (flags : List (Flag × Option String))
  /-- It gives options, and the last one, as it is written, waits for a value. -/
  | waiting (flags : List (Flag × Option String)) (last : Flag) (written : String)
deriving DecidableEq, Repr

/-- What an argument says with an option in front. -/
def Reading.withFlag (flag : Flag) : Reading → Reading
  | .given flags => .given ((flag, none) :: flags)
  | .waiting flags last written => .waiting ((flag, none) :: flags) last written
  | reading => reading

/-- Reads a group of letters. -/
def readGroup : List Char → Except OptionError Reading
  | [] => .ok (.given [])
  | c :: rest =>
    match Flag.ofLetter? c with
    | none => .error (.unrecognized (String.singleton c))
    | some flag =>
      if flag.takesValue then
        match rest with
        | [] => .ok (.waiting [] flag (String.singleton c))
        | _ => .ok (.given [(flag, some (String.ofList rest))])
      else (readGroup rest).map (Reading.withFlag flag)

/-- Reads an option by its name, with the value that is written after it. -/
def readNamed (name : List Char) (value : Option (List Char)) : Except OptionError Reading :=
  let written := String.ofList name
  match Flag.ofName? name, value with
  | none, _ => .error (.unrecognized written)
  | some flag, none =>
    .ok (if flag.takesValue then .waiting [] flag written else .given [(flag, none)])
  | some flag, some text =>
    if flag.takesValue then .ok (.given [(flag, some (String.ofList text))])
    else .error (.unexpectedValue written)

/-- Reads one argument. -/
def readArgument (argument : String) : Except OptionError Reading :=
  match argument.toList with
  | ['-', '-'] => .ok .endOfOptions
  | '-' :: '-' :: text =>
    match text.dropWhile (· != '=') with
    | [] => readNamed text none
    | _ :: value => readNamed (text.takeWhile (· != '=')) (some value)
  | '-' :: c :: rest => readGroup (c :: rest)
  | _ => .ok .free

/-! ## All arguments -/

/-- The arguments of a command line, sorted. -/
structure Arguments where
  flags : List (Flag × Option String) := []
  free : List String := []
deriving DecidableEq, Repr

/-- A way to sort arguments or to refuse them. -/
abbrev OptionReader : Type := List String → Except OptionError Arguments

namespace Arguments

/-- The arguments with options in front. -/
def withFlags (flags : List (Flag × Option String)) (arguments : Arguments) : Arguments :=
  { arguments with flags := flags ++ arguments.flags }

/-- The arguments with a free one in front. -/
def withFree (argument : String) (arguments : Arguments) : Arguments :=
  { arguments with free := argument :: arguments.free }

/-- Sorts arguments. -/
def scan : List String → Except OptionError Arguments
  | [] => .ok {}
  | argument :: rest =>
    match readArgument argument with
    | .error error => .error error
    | .ok .free => (scan rest).map (withFree argument)
    | .ok .endOfOptions => .ok { free := rest }
    | .ok (.given flags) => (scan rest).map (withFlags flags)
    | .ok (.waiting flags last written) =>
      match rest with
      | [] => .error (.missingValue written)
      | value :: rest => (scan rest).map (withFlags (flags ++ [(last, some value)]))

/-- How often an option was given. -/
def count (arguments : Arguments) (flag : Flag) : Nat :=
  arguments.flags.countP fun given => decide (given.1 = flag)

/-- Whether an option was given. -/
def has (arguments : Arguments) (flag : Flag) : Bool := decide (0 < arguments.count flag)

/-- The value of an option. -/
def value? (arguments : Arguments) (flag : Flag) : Option String :=
  (arguments.flags.lookup flag).join

/-- Sorts arguments and refuses an option that was given more than once. -/
def read : OptionReader := fun arguments => do
  let sorted ← scan arguments
  match Flag.all.find? fun flag => decide (1 < sorted.count flag) with
  | some flag => throw (.repeated flag)
  | none => return sorted

end Arguments

example : Arguments.read ["-cn3", "t", "--", "-p"] =
    .ok ⟨[(.characters, none), (.maxSteps, some "3")], ["t", "-p"]⟩ := rfl

example : Arguments.read ["-c", "--chars"] = .error (.repeated .characters) := rfl

example : Arguments.read ["-n"] = .error (.missingValue "n") := rfl

end ShiftReduce.CommandLine
