import ShiftReduce.Tables.Basic

/-!
# Building tables

Tables are built from *declarations*, one entry at a time.  A declaration that
contradicts an earlier one is refused, and the tables stay as they were.  An
action or a goto may be declared again with the same value, which changes
nothing.  A number may be given to one production only, even if the second one
is equal to the first.  The last end-marker declared counts.
-/

namespace ShiftReduce

/-- One entry of the tables, or their end-marker. -/
inductive Declaration where
  /-- The terminal that every input ends with. -/
  | endMarker (terminal : Symbol)
  | action (state : State) (terminal : Symbol) (what : Action)
  | goto (state : State) (nonTerminal : Symbol) (next : State)
  | production (id : ProductionId) (rule : Production)
deriving DecidableEq, Repr

/-- How a declaration contradicts an earlier one. -/
inductive TableError where
  | actionConflict (state : State) (terminal : Symbol) (old new : Action)
  | gotoConflict (state : State) (nonTerminal : Symbol) (old new : State)
  | duplicateProduction (id : ProductionId)
deriving DecidableEq, Repr

/-- The contradiction in words. -/
def TableError.message : TableError → String
  | .actionConflict state terminal old new =>
    s!"conflicting actions {old.text} and {new.text} for state {state} and terminal `{terminal}`"
  | .gotoConflict state nonTerminal old new =>
    s!"conflicting goto states {old} and {new} for state {state} " ++
      s!"and non-terminal `{nonTerminal}`"
  | .duplicateProduction id => s!"production {id} is defined twice"

namespace Tables

/-- The tables with one declaration more. -/
def declare (tables : Tables) : Declaration → Except TableError Tables
  | .endMarker terminal => .ok { tables with endMarker := terminal }
  | .action state terminal new =>
    match tables.action? state terminal with
    | none => .ok { tables with actions := tables.actions.insertIfNew (state, terminal) new }
    | some old => if old = new then .ok tables else .error (.actionConflict state terminal old new)
  | .goto state nonTerminal new =>
    match tables.goto? state nonTerminal with
    | none => .ok { tables with gotos := tables.gotos.insertIfNew (state, nonTerminal) new }
    | some old => if old = new then .ok tables else .error (.gotoConflict state nonTerminal old new)
  | .production id rule =>
    match tables.production? id with
    | none => .ok { tables with productions := tables.productions.insertIfNew id rule }
    | some _ => .error (.duplicateProduction id)

/-- The tables with one declaration more, or as they are if it is refused. -/
def declareOrKeep (tables : Tables) (declaration : Declaration) : Tables :=
  match tables.declare declaration with
  | .ok extended => extended
  | .error _ => tables

/-- The tables that declarations build in order, the refused ones left out. -/
def ofDeclarations (declarations : List Declaration) : Tables :=
  declarations.foldl declareOrKeep empty

end Tables

example :
    let tables := Tables.ofDeclarations [.action 2 "b" (.shift 4), .action 2 "b" (.reduce 1)]
    tables.action? 2 "b" = some (.shift 4) := by decide

end ShiftReduce
