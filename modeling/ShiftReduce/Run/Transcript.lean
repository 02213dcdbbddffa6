import ShiftReduce.Run.Basic

/-!
# Runs in words

A transcript has a line for every event.  A reduction is shown with its
production, or with the number of the production if the tables have none.
-/

namespace ShiftReduce

/-- An event in words. -/
def Event.text (tables : Tables) : Event → String
  | .shift symbol next => s!"Shift: {symbol} -> State {next}"
  | .reduce id _ =>
    match tables.production? id with
    | some production => s!"Reduced using {production.text}"
    | none => s!"Reduced using production {id}"
  | .accept => "Input is accepted."

/-- The events of a run in words, a line for each. -/
def transcript (tables : Tables) (events : List Event) : String :=
  String.join (events.map fun event => event.text tables ++ "\n")

/-- A stack in words.  The list has the bottom first. -/
def stackText (stack : List State) : String :=
  " ".intercalate (stack.map fun state => s!"{state}")

example :
    transcript .empty [.shift "x" 2, .accept] = "Shift: x -> State 2\nInput is accepted.\n" := by
  decide

example : stackText [0, 3, 4] = "0 3 4" := by decide

end ShiftReduce
