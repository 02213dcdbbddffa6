import ShiftReduce.Log.Record
import ShiftReduce.TableFile.Line

/-!
# Loading a table file

The lines of a table file are applied from the first to the last.  The first
line at fault ends the loading.  Tables that have been loaded are put on record
with their sizes.
-/

namespace ShiftReduce.TableFile

/-- The tables with the declarations of lines, the first of which has the given
number. -/
def applyLines (number : Nat) (tables : Tables) : List String → Except LoadError Tables
  | [] => .ok tables
  | line :: rest =>
    match applyLine tables line with
    | .ok extended => applyLines (number + 1) extended rest
    | .error error => .error (.line number error)

/-- The tables that the text of a table file declares. -/
def read (text : String) : Except LoadError Tables := applyLines 1 .empty (Text.lines text)

/-- The tables of a file, from its path and what reading it came to. -/
def load (path : String) (content : Except ReadFailure String) : Except LoadError Tables :=
  match content with
  | .ok text => read text
  | .error reason => .error (.unreadable path reason)

/-- The record of tables that have been loaded. -/
def loadRecord (tables : Tables) : Log.Record :=
  ⟨.debug, "slrparse::load",
    s!"loaded {tables.actions.size} actions, {tables.gotos.size} gotos, " ++
      s!"{tables.productions.size} productions"⟩

end ShiftReduce.TableFile
