import ShiftReduce.CommandLine.Output
import ShiftReduce.Proofs.Soundness

/-!
# Closed tables

Tables are at fault when they shift the end-marker, name a production that is not
defined, pop more states than there are, or lack the goto that a reduction needs.
Tables are *closed* when none of this can come up along their transitions
(`Tables.Closed`).  That is a condition on the tables alone, with no stack in it.

On closed tables only the input can be at fault (`Tables.Closed.never_at_fault`).
No step fails because of the tables, so a run is accepted or ends at an unexpected
symbol, and a command line never blames the tables once they are loaded.

The invariant is `Run.OnCourse`.  The stack is a path of transitions, and the
end-marker is still ahead.  A reduction on a path pops no more than a chain to the
top is long, and what it exposes is the end of a shorter path.
-/

namespace ShiftReduce

open CommandLine

/-! ## Failures of the tables -/

def ParseError.BlamesTables : ParseError → Prop
  | .reduction _ | .shiftPastEnd _ => True
  | .unexpectedSymbol .. | .missingEndMarker _ | .finished => False

/-! ## Conditions on the tables -/

namespace Tables

/-- A chain of transitions leads there from the start state. -/
def Reachable (tables : Tables) (state : State) : Prop :=
  ∃ symbols, tables.Chain startState symbols state

/-- The production can be reduced by on every way to the state. -/
structure CanReduce (tables : Tables) (state : State) (production : Production) : Prop where
  /-- No way there is shorter than the right-hand side. -/
  deep : ∀ symbols, tables.Chain startState symbols state → production.size ≤ symbols.length
  /-- Wherever the right-hand side may have begun there is a goto. -/
  goto : ∀ exposed symbols, tables.Reachable exposed → tables.Chain exposed symbols state →
    symbols.length = production.size → ∃ next, tables.goto? exposed production.lhs = some next

/-- Nothing is missing along the transitions. -/
structure Closed (tables : Tables) : Prop where
  keepsEndMarker : ∀ state next, tables.action? state tables.endMarker ≠ some (.shift next)
  reducible : ∀ state terminal id, tables.action? state terminal = some (.reduce id) →
    ∃ production, tables.production? id = some production ∧ tables.CanReduce state production

end Tables

/-! ## The invariant -/

namespace Run

/-- The run goes on, its stack is a path with the symbols, the topmost first, and the
end-marker has not been read. -/
structure OnCourse (tables : Tables) (run : Run) (symbols : List Symbol) : Prop where
  unfinished : run.finished = false
  path : Path tables.Transition run.stack symbols
  ahead : run.unread.getLast? = some tables.endMarker

namespace OnCourse

variable {tables : Tables} {run next : Run} {symbols : List Symbol} {outcome : Outcome}

theorem start {input : List Symbol} (h : input.getLast? = some tables.endMarker) :
    OnCourse tables { unread := input } [] where
  unfinished := rfl
  path := .start
  ahead := h

/-- The chain that the whole stack stands for. -/
theorem chain (h : OnCourse tables run symbols) :
    tables.Chain startState symbols.reverse run.top := by
  simpa using h.path.chain h.path.drop_labels run.stack_eq_cons

/-- A reduction that can be done on every way to the top can be done. -/
theorem reduces (h : OnCourse tables run symbols) {id : ProductionId} {production : Production}
    (hp : tables.production? id = some production)
    (hcan : tables.CanReduce run.top production) :
    ∃ next, (tables.reduce id run.stack).result = .ok next := by
  have hdeep : production.size < run.stack.length := by
    have := hcan.deep _ h.chain
    rw [List.length_reverse] at this
    rw [h.path.length_eq]
    omega
  obtain ⟨exposed, below, hd⟩ : ∃ exposed below,
      run.stack.drop production.size = exposed :: below :=
    ⟨_, _, List.drop_eq_getElem_cons hdeep⟩
  obtain ⟨hpath, hlength⟩ := h.path.pop hd
  have hreachable : tables.Reachable exposed := ⟨_, hpath.chain hpath.drop_labels rfl⟩
  obtain ⟨next, hg⟩ := hcan.goto exposed _ hreachable (h.path.chain hd run.stack_eq_cons)
    (by rw [List.length_reverse, hlength])
  exact ⟨next, Tables.reduce_eq_ok_iff.2 ⟨production, exposed, below, hp, hd, hg⟩⟩

/-- A run that goes on stays on course. -/
theorem step (h : OnCourse tables run symbols) (hclosed : tables.Closed)
    (hs : run.Step tables .running next) : ∃ symbols', OnCourse tables next symbols' := by
  cases hs with
  | @shift symbol rest state hu ha =>
      have hpath := h.path
      rw [run.stack_eq_cons] at hpath
      refine ⟨symbol :: symbols, h.unfinished, ?_, ?_⟩
      · rw [shift_stack, run.stack_eq_cons]
        exact .push hpath (.inl ha)
      · have hahead := h.ahead
        rw [hu] at hahead
        cases rest with
        | nil =>
            -- the symbol shifted would be the last end-marker
            obtain rfl : symbol = tables.endMarker := by simpa using hahead
            exact absurd ha (hclosed.keepsEndMarker _ _)
        | cons following rest => simpa using hahead
  | reduce hu ha hp hd hg => exact ⟨_, h.unfinished, .push (h.path.pop hd).1 (.inr hg), h.ahead⟩

/-- A step on course fails because of the input only. -/
theorem blamesInput (h : OnCourse tables run symbols) (hclosed : tables.Closed)
    {error : ParseError} (hs : run.Step tables (.failed error) next) :
    error.blamesInput = true := by
  cases hs with
  | pastEnd hu =>
      have hahead := h.ahead
      simp [hu] at hahead
  | unexpected => rfl
  | @defect symbol rest id error hu ha hfault =>
      obtain ⟨production, hp, hcan⟩ := hclosed.reducible _ _ _ ha
      obtain ⟨state, hr⟩ := h.reduces hp hcan
      rw [hr] at hfault
      cases hfault

/-- A run that has gone on so far fails next because of the input only. -/
theorem blamesInput_of_outcome (h : OnCourse tables run symbols) (hclosed : tables.Closed)
    {count : Nat} {error : ParseError} (hrun : ∀ k < count, run.outcome tables k = .running)
    (hfailed : run.outcome tables count = .failed error) : error.blamesInput = true := by
  obtain ⟨symbols', hafter⟩ := after_induction
    (P := fun run => ∃ symbols, OnCourse tables run symbols) ⟨symbols, h⟩
    (fun _ _ ⟨_, h⟩ hs => h.step hclosed hs) hrun
  have hstep := step_after tables count run
  rw [hfailed] at hstep
  exact hafter.blamesInput hclosed ((step_eq_iff hafter.unfinished).1 hstep)

end OnCourse

end Run

theorem ParseError.eq_unexpectedSymbol {error : ParseError} (h : error.blamesInput = true) :
    ∃ state symbol position, error = .unexpectedSymbol state symbol position := by
  cases error with
  | unexpectedSymbol state symbol position => exact ⟨state, symbol, position, rfl⟩
  | reduction | missingEndMarker | shiftPastEnd | finished => cases h

/-! ## Command lines -/

namespace CommandLine

/-- The input that a command line makes ends with the end-marker, so a parse on
closed tables is not given up as unusable. -/
theorem Request.status_ne_unusable {tables : Tables} (hclosed : tables.Closed)
    {request : Request} {filter : Log.Filter} {allowance : Nat} {output : Output}
    (h : request.runWithin filter tables allowance = some output) :
    output.status ≠ .unusable := by
  rw [runWithin, Option.map_eq_some_iff] at h
  obtain ⟨output, h, rfl⟩ := h
  have hinput : (request.input tables).getLast? = some tables.endMarker := Input.getLast?_read ..
  rw [parseOutputWithin, Run.start_eq_ok_iff.2 ⟨hinput, rfl⟩] at h
  have hcourse := Run.OnCourse.start hinput
  generalize { unread := request.input tables : Run } = run at h hcourse
  have houtcome := run.outcome_advance tables (request.limit.getD allowance)
  dsimp only at h
  cases ho : (run.advance tables (request.limit.getD allowance)).outcome with
  | running =>
      rw [ho] at h
      obtain ⟨limit, -, rfl⟩ := Option.map_eq_some_iff.1 h
      simp
  | accepted =>
      rw [ho] at h
      obtain rfl := Option.some.inj h
      simp
  | failed error =>
      rw [ho] at h houtcome
      obtain rfl := Option.some.inj h
      obtain ⟨last, -, hbefore, hlast⟩ := houtcome.resolve_left (by simp)
      simp [failureStatus, hcourse.blamesInput_of_outcome hclosed hbefore hlast.symm]

end CommandLine

/-! ## Only the input is at fault -/

/-- On closed tables no step fails because of the tables, a parse that comes to its end
accepts or stops at an unexpected symbol, and no command line that has loaded the
tables ends with the status 2. -/
theorem Tables.Closed.never_at_fault {tables : Tables} (hclosed : tables.Closed) :
    (∀ input : List Symbol, input.getLast? = some tables.endMarker →
      (∃ run, Run.start tables input = .ok run ∧
        ∀ count error, run.outcome tables count = .failed error → ¬ error.BlamesTables) ∧
      ∀ allowance answer, parseWithin tables allowance input = some answer →
        (∃ trace, answer = .ok trace) ∨
          ∃ state symbol position, answer = .error (.unexpectedSymbol state symbol position)) ∧
    ∀ (invocation : Invocation) read log arguments request allowance output,
      Command.ofArguments invocation.options arguments = .ok (.parse request) →
      TableFile.load request.path (read request.path) = .ok tables →
      invocation.outputWithin read log arguments allowance = some output →
        output.status.code ≠ 2 := by
  refine ⟨fun input hinput => ⟨⟨_, Run.start_eq_ok_iff.2 ⟨hinput, rfl⟩, ?_⟩, ?_⟩, ?_⟩
  · intro count error hfailed
    by_cases hbefore : ∀ k < count, Run.outcome tables k { unread := input } = .running
    · have hblames := (Run.OnCourse.start hinput).blamesInput_of_outcome hclosed hbefore hfailed
      obtain ⟨state, symbol, position, rfl⟩ := ParseError.eq_unexpectedSymbol hblames
      exact id
    · rw [Run.outcome_after_end hbefore] at hfailed
      obtain rfl := Outcome.failed.inj hfailed
      exact id
  · intro allowance answer h
    rw [parseWithin, Run.start_eq_ok_iff.2 ⟨hinput, rfl⟩] at h
    obtain ⟨last, -, hbefore, ⟨-, rfl⟩ | ⟨error, hfailed, rfl⟩⟩ := Run.answerWithin_eq_some_iff.1 h
    · exact .inl ⟨_, rfl⟩
    · have hblames := (Run.OnCourse.start hinput).blamesInput_of_outcome hclosed hbefore hfailed
      obtain ⟨state, symbol, position, rfl⟩ := ParseError.eq_unexpectedSymbol hblames
      exact .inr ⟨state, symbol, position, rfl⟩
  · intro invocation read log arguments request allowance output harguments hload h
    simp only [Invocation.outputWithin, harguments, Request.outputWithin, hload,
      Option.map_eq_some_iff] at h
    obtain ⟨output, h, rfl⟩ := h
    have hstatus := Request.status_ne_unusable hclosed h
    cases hs : output.status with
    | unusable => exact absurd hs hstatus
    | success | rejected | gaveUp => simp [ExitStatus.code]

section RightRecursive

variable {origin : State} {symbols : List Symbol}

/-- A chain to the state 3 comes from the state 2 by an `S`. -/
theorem rightRecursive_chain_three (h : rightRecursive.Chain origin symbols 3) :
    symbols = [] ∧ origin = 3 ∨
      ∃ front, symbols = front ++ ["S"] ∧ rightRecursive.Chain origin front 2 := by
  rcases h.eq_nil_or_snoc with ⟨rfl, ho⟩ | ⟨front, middle, last, rfl, hc, ht⟩
  · exact .inl ⟨rfl, ho.symm⟩
  · obtain ⟨rfl, rfl⟩ : last = "S" ∧ middle = 2 := by simpa using rightRecursive_transition ht
    exact .inr ⟨front, rfl, hc⟩

/-- A chain to the state 2 comes from a state that has a goto for `S`. -/
theorem rightRecursive_chain_two (h : rightRecursive.Chain origin symbols 2) :
    symbols = [] ∧ origin = 2 ∨ ∃ front middle symbol next, symbols = front ++ [symbol] ∧
      rightRecursive.Chain origin front middle ∧ rightRecursive.goto? middle "S" = some next := by
  rcases h.eq_nil_or_snoc with ⟨rfl, ho⟩ | ⟨front, middle, symbol, rfl, hc, ht | ht⟩
  · exact .inl ⟨rfl, ho.symm⟩
  · have hm := rightRecursive_action ht
    simp at hm
    rcases hm with ⟨rfl, -⟩ | ⟨rfl, -⟩
    · exact .inr ⟨front, 0, symbol, 1, rfl, hc, rfl⟩
    · exact .inr ⟨front, 2, symbol, 3, rfl, hc, rfl⟩
  · have hm := rightRecursive_goto ht
    simp at hm

/-- An empty right-hand side can be reduced by wherever there is a goto. -/
theorem rightRecursive_canReduce_empty {state next : State}
    (hg : rightRecursive.goto? state "S" = some next) :
    rightRecursive.CanReduce state ⟨"S", .symbols []⟩ where
  deep := fun _ _ => Nat.zero_le _
  goto := by
    intro exposed symbols _ hc hlength
    obtain rfl := List.eq_nil_of_length_eq_zero hlength
    rcases hc.eq_nil_or_snoc with ⟨-, rfl⟩ | ⟨front, middle, symbol, he, -, -⟩
    · exact ⟨next, hg⟩
    · simp at he

theorem rightRecursive_canReduce_pair :
    rightRecursive.CanReduce 3 ⟨"S", .symbols ["a", "S"]⟩ where
  deep := by
    intro symbols hc
    rcases rightRecursive_chain_three hc with ⟨-, h⟩ | ⟨front, rfl, hfront⟩
    · exact absurd h (by decide)
    · rcases rightRecursive_chain_two hfront with ⟨-, h⟩ | ⟨front, middle, symbol, next, rfl, -, -⟩
      · exact absurd h (by decide)
      · simp [Production.size, RightHandSide.size]
  goto := by
    intro exposed symbols _ hc hlength
    rcases rightRecursive_chain_three hc with ⟨rfl, -⟩ | ⟨front, rfl, hfront⟩
    · cases hlength
    · rcases rightRecursive_chain_two hfront with
        ⟨rfl, -⟩ | ⟨front, middle, symbol, next, rfl, hmiddle, hg⟩
      · cases hlength
      · obtain rfl : front = [] := by
          simpa [Production.size, RightHandSide.size] using hlength
        rcases hmiddle.eq_nil_or_snoc with ⟨-, rfl⟩ | ⟨_, _, _, he, -, -⟩
        · exact ⟨next, hg⟩
        · simp at he

theorem rightRecursive_closed : rightRecursive.Closed where
  keepsEndMarker := by
    intro state next h
    have hm := rightRecursive_action h
    simp [show rightRecursive.endMarker = "$" from rfl] at hm
  reducible := by
    intro state terminal id ha
    have hm := rightRecursive_action ha
    simp at hm
    rcases hm with ⟨⟨rfl, -⟩, rfl⟩ | ⟨⟨rfl, -⟩, rfl⟩ | ⟨⟨rfl, -⟩, rfl⟩
    · exact ⟨_, rfl, rightRecursive_canReduce_empty (show _ = some 1 from rfl)⟩
    · exact ⟨_, rfl, rightRecursive_canReduce_empty (show _ = some 3 from rfl)⟩
    · exact ⟨_, rfl, rightRecursive_canReduce_pair⟩

def rightRecursiveFile : String :=
  "prod 1 S -> a S\nprod 2 S ->\naction 0 a s2\naction 0 $ r2\naction 1 $ acc\n" ++
    "action 2 a s2\naction 2 $ r2\naction 3 $ r1\ngoto 0 S 1\ngoto 2 S 3\n"

set_option maxRecDepth 4000 in
theorem load_rightRecursiveFile :
    TableFile.load "tables" (.ok rightRecursiveFile) = .ok rightRecursive := by
  rfl

theorem never_at_fault_rightRecursive :
    rightRecursive.Closed ∧ ["a", "b", "$"].getLast? = some rightRecursive.endMarker ∧
      (∃ run, Run.start rightRecursive ["a", "b", "$"] = .ok run ∧
        ∀ count error, run.outcome rightRecursive count = .failed error → ¬ error.BlamesTables) ∧
      ∀ allowance output,
        outputWithin (fun _ => .ok rightRecursiveFile) "" ["tables", "a", "b"] allowance =
          some output → output.status.code ≠ 2 := by
  have hinput : ["a", "b", "$"].getLast? = some rightRecursive.endMarker := by decide
  obtain ⟨hruns, hcommands⟩ := Tables.Closed.never_at_fault rightRecursive_closed
  refine ⟨rightRecursive_closed, hinput, (hruns _ hinput).1, fun allowance output h => ?_⟩
  have harguments : Command.ofArguments Arguments.read ["tables", "a", "b"] =
      .ok (.parse ⟨"tables", ["a", "b"], .words, false, none⟩) := by rfl
  exact hcommands .standard (fun _ => .ok rightRecursiveFile) _ _ _ _ _ harguments
    load_rightRecursiveFile h

end RightRecursive

end ShiftReduce
