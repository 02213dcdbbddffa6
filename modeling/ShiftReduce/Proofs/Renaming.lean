import Mathlib.Data.Prod.Basic
import Mathlib.Logic.Equiv.Basic
import ShiftReduce.Proofs.FirstDeclared
import ShiftReduce.Proofs.Reduction
import ShiftReduce.Proofs.Relabelling

/-!
# Renaming

A *renaming* gives other names to states, to production numbers, to terminals and to
non-terminals, different ones to different things.  The start state keeps its name,
since every stack begins with it.

To rename tables is to rename every declaration that they are built by
(`Tables.rename_ofDeclarations`).  A step with renamed tables is the renamed step
(`Run.Step.rename`), and so are runs and parses.  The symbols of a right-hand side may
stay as they are, because a run does not look at them.
-/

namespace ShiftReduce

/-- Other names, no two of them the same. -/
structure Renaming where
  state : State → State
  id : ProductionId → ProductionId
  terminal : Symbol → Symbol
  nonTerminal : Symbol → Symbol
  state_injective : Function.Injective state
  id_injective : Function.Injective id
  terminal_injective : Function.Injective terminal
  nonTerminal_injective : Function.Injective nonTerminal
  /-- A run finds the start state by its name. -/
  state_start : state startState = startState

/-! ## Renamed data -/

def Action.rename (ρ : Renaming) : Action → Action
  | .shift next => .shift (ρ.state next)
  | .reduce id => .reduce (ρ.id id)
  | .accept => .accept
  | .error => .error

/-- The right-hand side stays as it is. -/
def Production.rename (ρ : Renaming) (rule : Production) : Production :=
  { rule with lhs := ρ.nonTerminal rule.lhs }

def Declaration.rename (ρ : Renaming) : Declaration → Declaration
  | .endMarker terminal => .endMarker (ρ.terminal terminal)
  | .action state terminal what => .action (ρ.state state) (ρ.terminal terminal) (what.rename ρ)
  | .goto state nonTerminal next =>
    .goto (ρ.state state) (ρ.nonTerminal nonTerminal) (ρ.state next)
  | .production id rule => .production (ρ.id id) (rule.rename ρ)

def Tables.rename (ρ : Renaming) (tables : Tables) : Tables where
  actions := tables.actions.relabel (Prod.map ρ.state ρ.terminal)
    (ρ.state_injective.prodMap ρ.terminal_injective) (Action.rename ρ)
  gotos := tables.gotos.relabel (Prod.map ρ.state ρ.nonTerminal)
    (ρ.state_injective.prodMap ρ.nonTerminal_injective) ρ.state
  productions := tables.productions.relabel ρ.id ρ.id_injective (Production.rename ρ)
  endMarker := ρ.terminal tables.endMarker

def Event.rename (ρ : Renaming) : Event → Event
  | .shift symbol next => .shift (ρ.terminal symbol) (ρ.state next)
  | .reduce id next => .reduce (ρ.id id) (ρ.state next)
  | .accept => .accept

def ReductionError.rename (ρ : Renaming) : ReductionError → ReductionError
  | .missingGoto exposed nonTerminal => .missingGoto (ρ.state exposed) (ρ.nonTerminal nonTerminal)
  | .underflow id size depth => .underflow (ρ.id id) size depth
  | .unknownProduction id => .unknownProduction (ρ.id id)

def ParseError.rename (ρ : Renaming) : ParseError → ParseError
  | .unexpectedSymbol state symbol position =>
    .unexpectedSymbol (ρ.state state) (ρ.terminal symbol) position
  | .reduction error => .reduction (error.rename ρ)
  | .missingEndMarker terminal => .missingEndMarker (ρ.terminal terminal)
  | .shiftPastEnd state => .shiftPastEnd (ρ.state state)
  | .finished => .finished

def Outcome.rename (ρ : Renaming) : Outcome → Outcome
  | .running => .running
  | .accepted => .accepted
  | .failed error => .failed (error.rename ρ)

def Trace.rename (ρ : Renaming) (trace : Trace) : Trace where
  events := trace.events.map (Event.rename ρ)
  stack := trace.stack.map ρ.state
  position := trace.position

def Run.rename (ρ : Renaming) (run : Run) : Run where
  stack := run.stack.map ρ.state
  stack_ne_nil := mt List.map_eq_nil_iff.1 run.stack_ne_nil
  unread := run.unread.map ρ.terminal
  position := run.position
  history := run.history.map (Event.rename ρ)
  finished := run.finished

def Progress.rename (ρ : Renaming) (progress : Progress) : Progress where
  left := progress.left
  outcome := progress.outcome.rename ρ
  run := progress.run.rename ρ

variable (ρ : Renaming) {tables : Tables}

/-! ## Tables -/

namespace Tables

theorem action?_rename (tables : Tables) (state : State) (terminal : Symbol) :
    (tables.rename ρ).action? (ρ.state state) (ρ.terminal terminal) =
      (tables.action? state terminal).map (Action.rename ρ) :=
  OrderedMap.get?_relabel (ρ.state_injective.prodMap ρ.terminal_injective) (Action.rename ρ)
    tables.actions (state, terminal)

theorem goto?_rename (tables : Tables) (state : State) (nonTerminal : Symbol) :
    (tables.rename ρ).goto? (ρ.state state) (ρ.nonTerminal nonTerminal) =
      (tables.goto? state nonTerminal).map ρ.state :=
  OrderedMap.get?_relabel (ρ.state_injective.prodMap ρ.nonTerminal_injective) ρ.state
    tables.gotos (state, nonTerminal)

theorem production?_rename (tables : Tables) (id : ProductionId) :
    (tables.rename ρ).production? (ρ.id id) =
      (tables.production? id).map (Production.rename ρ) :=
  OrderedMap.get?_relabel ρ.id_injective (Production.rename ρ) tables.productions id

theorem rename_declareOrKeep (tables : Tables) (declaration : Declaration) :
    (tables.declareOrKeep declaration).rename ρ =
      (tables.rename ρ).declareOrKeep (declaration.rename ρ) := by
  cases declaration with
  | endMarker terminal => rfl
  | action state terminal what =>
      rw [declareOrKeep_action, Declaration.rename, declareOrKeep_action, rename,
        OrderedMap.relabel_insertIfNew]
      rfl
  | goto state nonTerminal next =>
      rw [declareOrKeep_goto, Declaration.rename, declareOrKeep_goto, rename,
        OrderedMap.relabel_insertIfNew]
      rfl
  | production id rule =>
      rw [declareOrKeep_production, Declaration.rename, declareOrKeep_production, rename,
        OrderedMap.relabel_insertIfNew]
      rfl

/-- Renamed tables are built by renamed declarations.  The end-marker that they begin
with is renamed too. -/
theorem rename_ofDeclarations (declarations : List Declaration) :
    (ofDeclarations declarations).rename ρ =
      ofDeclarations
        (.endMarker (ρ.terminal "$") :: declarations.map (Declaration.rename ρ)) := by
  induction declarations using List.reverseRecOn with
  | nil => rfl
  | append_singleton front last ih =>
      rw [ofDeclarations_concat, rename_declareOrKeep, ih, ← ofDeclarations_concat,
        List.map_append, List.map_singleton, List.cons_append]

/-- A renamed stack is reduced to what the stack is reduced to, renamed. -/
theorem Reduces.rename {id : ProductionId} {stack left : List State}
    {result : Except ReductionError State} (hr : tables.Reduces id stack result left) :
    (tables.rename ρ).Reduces (ρ.id id) (stack.map ρ.state)
      ((result.map ρ.state).mapError (ReductionError.rename ρ)) (left.map ρ.state) := by
  have hdefined {rule : Production} (hp : tables.production? id = some rule) :
      (tables.rename ρ).production? (ρ.id id) = some (rule.rename ρ) := by
    rw [production?_rename, hp, Option.map_some]
  have hpopped {size : Nat} {rest : List State} (hd : stack.drop size = rest) :
      (stack.map ρ.state).drop size = rest.map ρ.state := by
    rw [← List.map_drop, hd]
  cases hr with
  | unknown hp => exact .unknown (by rw [production?_rename, hp, Option.map_none])
  | underflow hp hd =>
      have hunder := Reduces.underflow (hdefined hp) (hpopped hd)
      rwa [List.length_map] at hunder
  | missingGoto hp hd hg =>
      exact .missingGoto (hdefined hp) (hpopped hd)
        (by rw [Production.rename, goto?_rename, hg, Option.map_none])
  | done hp hd hg =>
      exact .done (hdefined hp) (hpopped hd)
        (by rw [Production.rename, goto?_rename, hg, Option.map_some])

end Tables

/-! ## Runs -/

namespace Run

theorem top_rename (run : Run) : (run.rename ρ).top = ρ.state run.top := List.head_map ..

theorem trace_rename (run : Run) : (run.rename ρ).trace = run.trace.rename ρ := by
  simp only [trace, events, rename, Trace.rename, List.map_reverse]

/-- With renamed tables the renamed run does what the run does, renamed. -/
theorem Step.rename {run next : Run} {outcome : Outcome} (hs : run.Step tables outcome next) :
    (run.rename ρ).Step (tables.rename ρ) (outcome.rename ρ) (next.rename ρ) := by
  have hunread {unread : List Symbol} (hu : run.unread = unread) :
      (run.rename ρ).unread = unread.map ρ.terminal := congrArg (List.map ρ.terminal) hu
  have haction {symbol : Symbol} {what : Option Action}
      (ha : tables.action? run.top symbol = what) :
      (tables.rename ρ).action? (run.rename ρ).top (ρ.terminal symbol) =
        what.map (Action.rename ρ) := by
    rw [top_rename, Tables.action?_rename, ha]
  cases hs with
  | shift hu ha => exact .shift (hunread hu) (haction ha)
  | reduce hu ha hp hd hg =>
      have hr := Tables.Reduces.done hp hd hg
      exact .of_reduces_ok (hunread hu) (haction ha) (hr.rename ρ)
  | accept hu ha => exact .accept (hunread hu) (haction ha)
  -- these two failures tell the state on top of the stack
  | pastEnd hu =>
      have hpast : (run.rename ρ).Step (tables.rename ρ) _ _ := .pastEnd (hunread hu)
      rwa [top_rename] at hpast
  | unexpected hu ha =>
      have hunexpected := Step.unexpected (hunread hu) (ha.imp haction haction)
      rwa [top_rename] at hunexpected
  | defect hu ha hfault =>
      have hr := Tables.reduces_of_result hfault
      exact .of_reduces_error (hunread hu) (haction ha) (hr.rename ρ) _

theorem step_rename (tables : Tables) (run : Run) :
    (run.rename ρ).step (tables.rename ρ) =
      ((run.step tables).1.rename ρ, (run.step tables).2.rename ρ) := by
  cases hf : run.finished with
  | true =>
      have hf' : (run.rename ρ).finished = true := hf
      rw [step_of_finished hf, step_of_finished hf']
      rfl
  | false =>
      have hf' : (run.rename ρ).finished = false := hf
      obtain ⟨outcome, next, hs⟩ := exists_step tables run
      rw [hs.step_eq hf, (hs.rename ρ).step_eq hf']

theorem after_rename (tables : Tables) (count : Nat) (run : Run) :
    (run.rename ρ).after (tables.rename ρ) count = (run.after tables count).rename ρ := by
  induction count with
  | zero => rfl
  | succ count ih => rw [after, after, ih, step_rename]

theorem outcome_rename (tables : Tables) (count : Nat) (run : Run) :
    (run.rename ρ).outcome (tables.rename ρ) count = (run.outcome tables count).rename ρ := by
  rw [outcome, outcome, after_rename, step_rename]

theorem advance_rename (tables : Tables) (allowance : Nat) (run : Run) :
    (run.rename ρ).advance (tables.rename ρ) allowance =
      (run.advance tables allowance).rename ρ := by
  induction allowance generalizing run with
  | zero => rfl
  | succ allowance ih =>
      rw [advance, advance, step_rename]
      obtain ⟨outcome, next⟩ := run.step tables
      cases outcome with
      | running => exact ih next
      | accepted | failed => rfl

theorem answerWithin_rename (tables : Tables) (allowance : Nat) (run : Run) :
    (run.rename ρ).answerWithin (tables.rename ρ) allowance =
      (run.answerWithin tables allowance).map fun answer =>
        (answer.map (Trace.rename ρ)).mapError (ParseError.rename ρ) := by
  rw [answerWithin, answerWithin, advance_rename]
  obtain ⟨left, outcome, last⟩ := run.advance tables allowance
  cases outcome with
  | running | failed => rfl
  | accepted => exact congrArg (fun trace => some (Except.ok trace)) (trace_rename ρ last)

/-- A renamed input starts a run exactly if the input does. -/
theorem start_rename (tables : Tables) (input : List Symbol) :
    Run.start (tables.rename ρ) (input.map ρ.terminal) =
      ((Run.start tables input).map (Run.rename ρ)).mapError (ParseError.rename ρ) := by
  have hlast : (input.map ρ.terminal).getLast? = some (tables.rename ρ).endMarker ↔
      input.getLast? = some tables.endMarker := by
    rw [List.getLast?_map]
    exact (Option.map_injective ρ.terminal_injective).eq_iff (b := some tables.endMarker)
  by_cases hinput : input.getLast? = some tables.endMarker
  · have hrun : Run.rename ρ { unread := input } = { unread := input.map ρ.terminal } := by
      simp only [rename, List.map_cons, List.map_nil, ρ.state_start]
    rw [Run.start, if_pos (hlast.2 hinput), Run.start, if_pos hinput, ← hrun]
    rfl
  · rw [Run.start, if_neg (mt hlast.1 hinput), Run.start, if_neg hinput]
    rfl

end Run

theorem parseWithin_rename (tables : Tables) (allowance : Nat) (input : List Symbol) :
    parseWithin (tables.rename ρ) allowance (input.map ρ.terminal) =
      (parseWithin tables allowance input).map fun answer =>
        (answer.map (Trace.rename ρ)).mapError (ParseError.rename ρ) := by
  rw [parseWithin, parseWithin, Run.start_rename]
  cases Run.start tables input with
  | ok run => exact Run.answerWithin_rename ρ tables allowance run
  | error error => rfl

/-- No name but that of the start state makes a difference.  With renamed tables the
renamed input starts the renamed run, every step comes to what it came to, renamed, and
leaves the renamed run, and so the parse has the renamed answer, or none if there was
none.  Renamed tables are the ones that renamed declarations build. -/
theorem renaming_commutes (ρ : Renaming) (tables : Tables) :
    (∀ input, Run.start (tables.rename ρ) (input.map ρ.terminal) =
      ((Run.start tables input).map (Run.rename ρ)).mapError (ParseError.rename ρ)) ∧
    (∀ run count,
      Run.outcome (tables.rename ρ) count (run.rename ρ) =
          (Run.outcome tables count run).rename ρ ∧
        Run.after (tables.rename ρ) count (run.rename ρ) =
          (Run.after tables count run).rename ρ) ∧
    (∀ allowance input, parseWithin (tables.rename ρ) allowance (input.map ρ.terminal) =
      (parseWithin tables allowance input).map fun answer =>
        (answer.map (Trace.rename ρ)).mapError (ParseError.rename ρ)) ∧
    ∀ declarations, tables = .ofDeclarations declarations →
      tables.rename ρ = .ofDeclarations
        (.endMarker (ρ.terminal "$") :: declarations.map (Declaration.rename ρ)) := by
  refine ⟨Run.start_rename ρ tables, fun run count => ⟨?_, ?_⟩, parseWithin_rename ρ tables, ?_⟩
  · exact Run.outcome_rename ρ tables count run
  · exact Run.after_rename ρ tables count run
  · rintro declarations rfl
    exact Tables.rename_ofDeclarations ρ declarations

/-- States, numbers and non-terminals are swapped, and `x` with the end-marker. -/
theorem renaming_commutes_swapped :
    let ρ : Renaming :=
      { state := Equiv.swap 1 2, id := Equiv.swap 1 7, terminal := Equiv.swap "x" "$",
        nonTerminal := Equiv.swap "E" "x",
        state_injective := Equiv.injective _, id_injective := Equiv.injective _,
        terminal_injective := Equiv.injective _, nonTerminal_injective := Equiv.injective _,
        state_start := by decide }
    let tables := Tables.ofDeclarations
      [.production 1 ⟨"E", .symbols ["x"]⟩, .action 0 "x" (.shift 2), .action 2 "$" (.reduce 1),
        .action 1 "$" .accept, .goto 0 "E" 1]
    let renamed := Tables.ofDeclarations
      [.endMarker "x", .production 7 ⟨"x", .symbols ["x"]⟩, .action 0 "$" (.shift 1),
        .action 1 "x" (.reduce 7), .action 2 "x" .accept, .goto 0 "x" 2]
    tables.rename ρ = renamed ∧
      parseWithin renamed 3 ["$", "x"] =
        some (.ok ⟨[.shift "$" 1, .reduce 7 2, .accept], [0, 2], 1⟩) ∧
      parseWithin renamed 2 ["x"] = some (.error (.unexpectedSymbol 0 "x" 0)) := by
  intro ρ tables renamed
  obtain ⟨-, -, hparse, hbuilt⟩ := renaming_commutes ρ tables
  have hrenamed : tables.rename ρ = renamed := hbuilt _ rfl
  rw [← hrenamed]
  exact ⟨rfl, hparse 3 ["x", "$"], hparse 2 ["$"]⟩

end ShiftReduce
