import ShiftReduce.Run.Reduction

/-!
# Runs

A *run* takes an input through the tables, one action at a time.  It keeps a
stack of states, the symbols it has not read, and its *history*, the events so
far.  A run starts with the start state alone on its stack.

A step looks up the action for the top of the stack and the next symbol, and
does it.  Its *outcome* says whether the run goes on, has accepted its input or
has failed.  In the last two cases the run is finished, and every later step
fails without changing anything.

The input has to end with the end-marker.  The end-marker may stand earlier as
well, and the tables may shift it there.  They may even shift the last one, and
then the next step finds nothing to read.

The stack and the history grow at the front: the top of the stack is the head
of its list, and so is the latest event.
-/

namespace ShiftReduce

/-- One thing that a run did. -/
inductive Event where
  | shift (symbol : Symbol) (next : State)
  | reduce (production : ProductionId) (next : State)
  | accept
deriving DecidableEq, Repr

/-- What a step came to. -/
inductive Outcome where
  | running
  | accepted
  | failed (error : ParseError)
deriving DecidableEq, Repr

/-- A record of a run: what it did, its stack and its position.  Here the events
are in the order in which they came, and the stack has its bottom first. -/
structure Trace where
  /-- What the run did, the earliest event first. -/
  events : List Event
  /-- The stack, bottom first. -/
  stack : List State
  position : Nat
deriving DecidableEq, Repr

/-- A run on its way. -/
structure Run where
  /-- The stack, top first. -/
  stack : List State := [startState]
  stack_ne_nil : stack ≠ [] := by simp
  unread : List Symbol
  position : Nat := 0
  /-- What the run did, the latest event first. -/
  history : List Event := []
  finished : Bool := false
deriving DecidableEq, Repr

namespace Run

/-- The run on an input that has not begun yet. -/
def start (tables : Tables) (input : List Symbol) : Except ParseError Run :=
  if input.getLast? = some tables.endMarker then .ok { unread := input }
  else .error (.missingEndMarker tables.endMarker)

/-- The state on top of the stack. -/
def top (run : Run) : State := run.stack.head run.stack_ne_nil

/-- What the run did, the earliest event first. -/
def events (run : Run) : List Event := run.history.reverse

/-- The record of the run so far. -/
def trace (run : Run) : Trace :=
  { events := run.events, stack := run.stack.reverse, position := run.position }

/-! ## The three moves -/

/-- Reads the next symbol and pushes a state. -/
def shift (run : Run) (symbol : Symbol) (rest : List Symbol) (next : State) : Run :=
  { run with
    stack := next :: run.stack
    stack_ne_nil := List.cons_ne_nil _ _
    unread := rest
    position := run.position + 1
    history := .shift symbol next :: run.history }

/-- Reduces by a production and pushes its goto state.  If the reduction fails,
the run keeps what the reduction left of its stack. -/
def reduce (tables : Tables) (id : ProductionId) (run : Run) : Outcome × Run :=
  let reduction := tables.reduce id run.stack
  let popped : Run :=
    { run with
      stack := reduction.stack
      stack_ne_nil := tables.reduce_stack_ne_nil id run.stack_ne_nil }
  match reduction.result with
  | .ok next =>
    (.running,
      { popped with
        stack := next :: popped.stack
        stack_ne_nil := List.cons_ne_nil _ _
        history := .reduce id next :: popped.history })
  | .error error => (.failed (.reduction error), popped)

/-- Does what the tables say for the top of the stack and the next symbol. -/
def act (tables : Tables) (run : Run) : Outcome × Run :=
  match run.unread with
  | [] => (.failed (.shiftPastEnd run.top), run)
  | symbol :: rest =>
    match tables.action? run.top symbol with
    | some (.shift next) => (.running, run.shift symbol rest next)
    | some (.reduce id) => run.reduce tables id
    | some .accept => (.accepted, { run with history := .accept :: run.history })
    | some .error | none => (.failed (.unexpectedSymbol run.top symbol run.position), run)

/-- One step.  It finishes the run unless the run goes on. -/
def step (tables : Tables) (run : Run) : Outcome × Run :=
  if run.finished then (.failed .finished, run)
  else
    match run.act tables with
    | (.running, next) => (.running, next)
    | (outcome, last) => (outcome, { last with finished := true })

end Run

end ShiftReduce
