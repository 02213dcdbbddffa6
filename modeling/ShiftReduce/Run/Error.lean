import ShiftReduce.Tables.Basic

/-!
# Failures of a run

A run fails because the input is no sentence, because the tables are defective,
or because it was asked for something it cannot do.  Only a symbol without an
action is the fault of the input.
-/

namespace ShiftReduce

/-- A defect of the tables that shows in a reduction. -/
inductive ReductionError where
  | missingGoto (exposed : State) (nonTerminal : Symbol)
  /-- The right-hand side is as long as the stack or longer. -/
  | underflow (production : ProductionId) (size depth : Nat)
  | unknownProduction (production : ProductionId)
deriving DecidableEq, Repr

/-- The defect in words. -/
def ReductionError.message : ReductionError → String
  | .missingGoto exposed nonTerminal =>
    s!"no goto entry for state {exposed} and non-terminal `{nonTerminal}`"
  | .underflow production size depth =>
    s!"production {production} pops {size} states but the stack holds only {depth}"
  | .unknownProduction production => s!"reduce by unknown production {production}"

/-- Why a run failed. -/
inductive ParseError where
  | unexpectedSymbol (state : State) (symbol : Symbol) (position : Nat)
  | reduction (error : ReductionError)
  /-- The input does not end with the end-marker, so the run did not start. -/
  | missingEndMarker (endMarker : Symbol)
  /-- The last end-marker was shifted, and more input was asked for. -/
  | shiftPastEnd (state : State)
  | finished
deriving DecidableEq, Repr

namespace ParseError

/-- The failure in words. -/
def message : ParseError → String
  | .unexpectedSymbol state symbol position =>
    s!"unexpected symbol `{symbol}` at position {position} in state {state}"
  | .reduction error => error.message
  | .missingEndMarker endMarker => s!"input does not end with the end-marker `{endMarker}`"
  | .shiftPastEnd state => s!"state {state} was entered by shifting past the end of the input"
  | .finished => "the parse run has already finished"

/-- Whether the input is to blame. -/
def blamesInput : ParseError → Bool
  | .unexpectedSymbol .. => true
  | _ => false

/-- The failure in words, with what is to blame in front. -/
def report : ParseError → String
  | .unexpectedSymbol state symbol position =>
    s!"input error: no action for state {state} and symbol `{symbol}` at position {position}"
  | error@(.missingEndMarker _) | error@.finished => s!"usage error: {error.message}"
  | error@(.reduction _) | error@(.shiftPastEnd _) => s!"table error: {error.message}"

end ParseError

end ShiftReduce
