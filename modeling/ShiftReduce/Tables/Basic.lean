import ShiftReduce.OrderedMap

/-!
# Parse tables

The tables of a shift-reduce parser say what to do in a state.  The *actions*
are keyed by a state and the terminal that comes next.  The *gotos* are keyed
by a state and the non-terminal of a right-hand side that has just been taken
off the stack.  A reduction names its *production* by a number.

The symbols of a right-hand side are there to be shown.  A parser only asks how
many of them there are, so a production may say no more than that.
-/

namespace ShiftReduce

/-- A terminal or a non-terminal. -/
abbrev Symbol := String

/-- A state of the automaton. -/
abbrev State := UInt32

/-- The number of a production. -/
abbrev ProductionId := UInt32

/-- The state at the bottom of every stack. -/
def startState : State := 0

/-! ## Actions -/

/-- What the tables say to do. -/
inductive Action where
  | shift (next : State)
  | reduce (production : ProductionId)
  | accept
  /-- The input is no sentence.  A missing entry says the same. -/
  | error
deriving DecidableEq, Repr

/-- An action as it is written in a table. -/
def Action.text : Action → String
  | .shift next => s!"s{next}"
  | .reduce production => s!"r{production}"
  | .accept => "acc"
  | .error => "err"

/-! ## Productions -/

/-- A right-hand side. -/
inductive RightHandSide where
  | symbols (list : List Symbol)
  /-- Only their number is known. -/
  | length (count : Nat)
deriving DecidableEq, Repr

/-- The number of symbols. -/
def RightHandSide.size : RightHandSide → Nat
  | .symbols list => list.length
  | .length count => count

/-- A right-hand side in words.  `()` stands for no symbols. -/
def RightHandSide.text : RightHandSide → String
  | .symbols [] => "()"
  | .symbols list => " ".intercalate list
  | .length count => s!"<{count} symbols>"

/-- A production of the grammar. -/
structure Production where
  lhs : Symbol
  rhs : RightHandSide
deriving DecidableEq, Repr

/-- The number of states that a reduction takes off the stack. -/
def Production.size (production : Production) : Nat := production.rhs.size

/-- A production in words. -/
def Production.text (production : Production) : String :=
  s!"{production.lhs} -> {production.rhs.text}"

/-! ## Tables -/

/-- The tables of a parser. -/
structure Tables where
  actions : OrderedMap (State × Symbol) Action := .empty
  gotos : OrderedMap (State × Symbol) State := .empty
  productions : OrderedMap ProductionId Production := .empty
  /-- The terminal that every input ends with. -/
  endMarker : Symbol := "$"
deriving DecidableEq, Repr

namespace Tables

/-- The tables without entries, with `$` as the end-marker. -/
def empty : Tables := {}

/-- The action for a state and a terminal. -/
def action? (tables : Tables) (state : State) (terminal : Symbol) : Option Action :=
  tables.actions.get? (state, terminal)

/-- The next state for a state and a non-terminal. -/
def goto? (tables : Tables) (state : State) (nonTerminal : Symbol) : Option State :=
  tables.gotos.get? (state, nonTerminal)

/-- The production with a number. -/
def production? (tables : Tables) (id : ProductionId) : Option Production :=
  tables.productions.get? id

/-- Whether two tables have the same end-marker and the same entries.  The order
of the entries does not count. -/
def same (a b : Tables) : Bool :=
  a.actions.sameEntries b.actions && a.gotos.sameEntries b.gotos &&
    a.productions.sameEntries b.productions && decide (a.endMarker = b.endMarker)

end Tables

example : Production.text ⟨"S", .symbols ["A", "A"]⟩ = "S -> A A" := by decide

example : Production.text ⟨"E", .symbols []⟩ = "E -> ()" := by decide

example : Production.text ⟨"A", .length 3⟩ = "A -> <3 symbols>" := by decide

end ShiftReduce
