import ShiftReduce.Tables.Basic

/-!
# The tables in words

A listing has three parts: the actions, the gotos and the productions, each
under a title.  Actions and gotos are grouped by state, the states in the order
of their first entries.  A blank line parts one part from the next.
-/

namespace ShiftReduce.Tables

/-- A line of the listing for an action. -/
def actionLine (entry : (State × Symbol) × Action) : String :=
  s!"State {entry.1.1}, Symbol '{entry.1.2}' -> {entry.2.text}\n"

/-- A line of the listing for a goto. -/
def gotoLine (entry : (State × Symbol) × State) : String :=
  s!"State {entry.1.1}, Non-terminal '{entry.1.2}' -> State {entry.2}\n"

/-- A line of the listing for a production. -/
def productionLine (entry : ProductionId × Production) : String :=
  s!"{entry.1}: {entry.2.text}\n"

/-- The listing of all entries. -/
def listing (tables : Tables) : String :=
  "ACTION TABLE:\n" ++ String.join (tables.actions.byRow.map actionLine) ++
    "\nGOTO TABLE:\n" ++ String.join (tables.gotos.byRow.map gotoLine) ++
    "\nPRODUCTIONS:\n" ++ String.join (tables.productions.toList.map productionLine)

example : listing empty = "ACTION TABLE:\n\nGOTO TABLE:\n\nPRODUCTIONS:\n" := by decide

end ShiftReduce.Tables
