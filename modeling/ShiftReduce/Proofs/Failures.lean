import ShiftReduce.Proofs.Reduction
import ShiftReduce.Proofs.Resuming

/-!
# What a failure says

A failure names states, symbols, positions and numbers.  `Trace.Shows` lists the
failures that can end a run, each with what its parts are in the record of the run
just before the step that fails.  The list does not ask how the run came there.

After any number of steps that went on, the next step fails with an error exactly if
the record shows that error (`Run.outcome_eq_failed_iff`).  So what parsing fails with
is true of the run, unless the run has not begun because the end-marker is missing
(`failure_shown`).

A failure behind the end of the input says what was done last.  This takes an
invariant, since the step that fails does not look at the events
(`Run.Spelled.last`).
-/

namespace ShiftReduce

/-- The symbol that was read. -/
def Event.read? : Event → Option Symbol
  | .shift symbol _ => some symbol
  | .reduce .. | .accept => none

/-! ## Records that show a failure -/

/-- The record leads to an action, by the state on top and the symbol that comes next. -/
def Trace.LeadsTo (tables : Tables) (input : List Symbol) (record : Trace) (action : Action) :
    Prop :=
  ∃ state symbol, record.stack.getLast? = some state ∧ input[record.position]? = some symbol ∧
    tables.action? state symbol = some action

/-- The record of a run on the input bears a failure out. -/
inductive Trace.Shows (tables : Tables) (input : List Symbol) (record : Trace) :
    ParseError → Prop where
  | unexpectedSymbol {state : State} {symbol : Symbol}
      (next : input[record.position]? = some symbol)
      (read : record.events.filterMap Event.read? = input.take record.position)
      (top : record.stack.getLast? = some state)
      (action : tables.action? state symbol = none ∨
        tables.action? state symbol = some .error) :
      Shows tables input record (.unexpectedSymbol state symbol record.position)
  | unknownProduction {id : ProductionId} (leads : record.LeadsTo tables input (.reduce id))
      (undefined : tables.production? id = none) :
      Shows tables input record (.reduction (.unknownProduction id))
  | underflow {id : ProductionId} {production : Production}
      (leads : record.LeadsTo tables input (.reduce id))
      (defined : tables.production? id = some production)
      (short : record.stack.length ≤ production.size) :
      Shows tables input record
        (.reduction (.underflow id production.size record.stack.length))
  | missingGoto {id : ProductionId} {production : Production} {exposed : State}
      (leads : record.LeadsTo tables input (.reduce id))
      (defined : tables.production? id = some production)
      (deep : production.size < record.stack.length)
      (uncovered : record.stack[record.stack.length - 1 - production.size]? = some exposed)
      (missing : tables.goto? exposed production.lhs = none) :
      Shows tables input record (.reduction (.missingGoto exposed production.lhs))
  | shiftPastEnd {state : State} (position : record.position = input.length)
      (top : record.stack.getLast? = some state)
      (last : record.events.getLast? = some (.shift tables.endMarker state)) :
      Shows tables input record (.shiftPastEnd state)

namespace Run

variable {tables : Tables} {input : List Symbol} {run next : Run} {error : ParseError}

/-! ## What has been read -/

/-- The symbols that were shifted are those in front of the unread ones.  If none is
unread, the end-marker was shifted last. -/
structure Spelled (tables : Tables) (input : List Symbol) (run : Run) : Prop where
  input_eq : input = run.events.filterMap Event.read? ++ run.unread
  last : run.unread = [] → run.events.getLast? = some (.shift tables.endMarker run.top)

namespace Spelled

theorem start (hinput : input.getLast? = some tables.endMarker) :
    Spelled tables input { unread := input } where
  input_eq := rfl
  last := by
    rintro (rfl : input = [])
    cases hinput

theorem step (h : Spelled tables input run) (hinput : input.getLast? = some tables.endMarker)
    (hs : run.Step tables .running next) : Spelled tables input next := by
  have hread := h.input_eq
  cases hs with
  | @shift symbol rest state hu ha =>
      rw [hu] at hread
      constructor
      · simpa [Event.read?] using hread
      · rintro (rfl : rest = [])
        -- the symbol is the last of the input, so it is the end-marker
        rw [hread, List.getLast?_append, List.getLast?_singleton, Option.some_or] at hinput
        rw [shift_events, List.getLast?_concat, shift_top, Option.some.inj hinput]
  | reduce hu ha hp hd hg =>
      constructor
      · simpa [Event.read?, List.filterMap_cons] using hread
      · intro hnil
        rw [replace_unread, hu] at hnil
        cases hnil

theorem after (hinput : input.getLast? = some tables.endMarker) {count : Nat}
    (h : ∀ k < count, Run.outcome tables k { unread := input } = .running) :
    Spelled tables input (Run.after tables count { unread := input }) :=
  after_induction (.start hinput) (fun _ _ hspelled hs => hspelled.step hinput hs) h

theorem reads (h : Spelled tables input run) (hc : Consistent input run) :
    run.events.filterMap Event.read? = input.take run.position := by
  have hsplit : run.events.filterMap Event.read? ++ run.unread =
      input.take run.position ++ run.unread := by
    rw [← h.input_eq, hc.unread, List.take_append_drop]
  exact List.append_cancel_right hsplit

end Spelled

/-! ## The record of a run -/

theorem getLast?_trace_stack (run : Run) : run.trace.stack.getLast? = some run.top := by
  rw [trace, List.getLast?_reverse, top, List.head?_eq_some_head run.stack_ne_nil]

theorem top_eq_iff {state : State} : run.trace.stack.getLast? = some state ↔ run.top = state := by
  rw [getLast?_trace_stack, Option.some.injEq]

theorem length_trace_stack (run : Run) : run.trace.stack.length = run.stack.length :=
  List.length_reverse

/-- A symbol comes next in the input exactly if it is the first one unread. -/
theorem Consistent.getElem?_eq_some_iff (hc : Consistent input run) {symbol : Symbol} :
    input[run.trace.position]? = some symbol ↔ ∃ rest, run.unread = symbol :: rest := by
  rw [show run.trace.position = run.position from rfl, hc.getElem?_position,
    List.head?_eq_some_iff]

theorem Consistent.leadsTo_iff (hc : Consistent input run) {action : Action} :
    run.trace.LeadsTo tables input action ↔
      ∃ symbol rest, run.unread = symbol :: rest ∧
        tables.action? run.top symbol = some action := by
  constructor
  · rintro ⟨state, symbol, htop, hnext, ha⟩
    obtain rfl := top_eq_iff.1 htop
    obtain ⟨rest, hu⟩ := hc.getElem?_eq_some_iff.1 hnext
    exact ⟨symbol, rest, hu, ha⟩
  · rintro ⟨symbol, rest, hu, ha⟩
    exact ⟨run.top, symbol, getLast?_trace_stack run, hc.getElem?_eq_some_iff.2 ⟨rest, hu⟩, ha⟩

/-- A state is exposed exactly if it stands in the record where the right-hand side
begins. -/
theorem exposes_iff {size : Nat} {exposed : State} :
    (∃ below, run.stack.drop size = exposed :: below) ↔
      size < run.trace.stack.length ∧
        run.trace.stack[run.trace.stack.length - 1 - size]? = some exposed := by
  rw [← List.head?_eq_some_iff, List.head?_drop, length_trace_stack]
  constructor
  · intro h
    have hlt := (List.getElem?_eq_some_iff.1 h).1
    refine ⟨hlt, ?_⟩
    rw [trace, List.getElem?_reverse (by omega), ← h]
    congr 1
    omega
  · rintro ⟨hlt, h⟩
    rw [trace, List.getElem?_reverse (by omega)] at h
    rw [← h]
    congr 1
    omega

/-! ## Steps that fail -/

theorem Step.shows (hspelled : Spelled tables input run) (hc : Consistent input run)
    (hs : run.Step tables (.failed error) next) : run.trace.Shows tables input error := by
  cases hs with
  | pastEnd hu =>
      refine .shiftPastEnd ?_ (getLast?_trace_stack run) (hspelled.last hu)
      have hdrop : input.drop run.position = [] := by rw [← hc.unread, hu]
      exact Nat.le_antisymm hc.position_le (List.drop_eq_nil_iff.1 hdrop)
  | unexpected hu ha =>
      exact .unexpectedSymbol (hc.getElem?_eq_some_iff.2 ⟨_, hu⟩) (hspelled.reads hc)
        (getLast?_trace_stack run) ha.symm
  | @defect symbol rest id error hu ha hfault =>
      have hleads := hc.leadsTo_iff.2 ⟨symbol, rest, hu, ha⟩
      have hreduces := Tables.reduces_of_result hfault
      generalize (tables.reduce id run.stack).stack = left at hreduces
      cases hreduces with
      | unknown hp => exact .unknownProduction hleads hp
      | underflow hp hd =>
          rw [← length_trace_stack]
          refine .underflow hleads hp ?_
          rw [length_trace_stack]
          exact List.drop_eq_nil_iff.1 hd
      | missingGoto hp hd hg =>
          obtain ⟨hdeep, huncovered⟩ := exposes_iff.1 ⟨_, hd⟩
          exact .missingGoto hleads hp hdeep huncovered hg

theorem exists_step_of_shows (hc : Consistent input run)
    (h : run.trace.Shows tables input error) : ∃ next, run.Step tables (.failed error) next := by
  cases h with
  | unexpectedSymbol hnext hread htop ha =>
      obtain rfl := top_eq_iff.1 htop
      obtain ⟨rest, hu⟩ := hc.getElem?_eq_some_iff.1 hnext
      exact ⟨_, .unexpected hu ha.symm⟩
  | unknownProduction hleads hp =>
      obtain ⟨symbol, rest, hu, ha⟩ := hc.leadsTo_iff.1 hleads
      exact ⟨_, .of_reduces_error hu ha (.unknown hp) run.stack_ne_nil⟩
  | underflow hleads hp hshort =>
      obtain ⟨symbol, rest, hu, ha⟩ := hc.leadsTo_iff.1 hleads
      rw [length_trace_stack] at hshort ⊢
      exact ⟨_, .of_reduces_error hu ha (.underflow hp (List.drop_eq_nil_iff.2 hshort))
        run.stack_ne_nil⟩
  | missingGoto hleads hp hdeep huncovered hg =>
      obtain ⟨symbol, rest, hu, ha⟩ := hc.leadsTo_iff.1 hleads
      obtain ⟨below, hd⟩ := exposes_iff.2 ⟨hdeep, huncovered⟩
      exact ⟨_, .of_reduces_error hu ha (.missingGoto hp hd hg) (List.cons_ne_nil _ _)⟩
  | shiftPastEnd hposition htop hlast =>
      obtain rfl := top_eq_iff.1 htop
      have hu : run.unread = [] := by
        rw [hc.unread]
        exact List.drop_eq_nil_iff.2 (Nat.le_of_eq hposition.symm)
      exact ⟨_, .pastEnd hu⟩

/-- As long as a run has gone on, its next step fails with what the record shows and
with nothing else. -/
theorem outcome_eq_failed_iff (hinput : input.getLast? = some tables.endMarker) {count : Nat}
    (h : ∀ k < count, Run.outcome tables k { unread := input } = .running) :
    Run.outcome tables count { unread := input } = .failed error ↔
      (Run.after tables count { unread := input }).trace.Shows tables input error := by
  have hc := (Consistent.start input).after tables count
  have hf : (Run.after tables count { unread := input }).finished = false :=
    (not_finished_after_iff rfl count).2 h
  constructor
  · intro hfailed
    have he := step_after tables count { unread := input }
    rw [hfailed] at he
    exact ((step_eq_iff hf).1 he).shows (.after hinput h) hc
  · intro hshows
    obtain ⟨next, hs⟩ := exists_step_of_shows hc hshows
    rw [outcome, hs.step_eq hf]

theorem start_eq_error_iff :
    Run.start tables input = .error error ↔
      input.getLast? ≠ some tables.endMarker ∧ error = .missingEndMarker tables.endMarker := by
  unfold Run.start
  split
  · next h => simp [h]
  · next h => simp [h, eq_comm]

end Run

/-! ## Parsing that fails -/

section Parsing

variable {tables : Tables} {input : List Symbol} {error : ParseError}

/-- Parsing fails because the run cannot start or because one of its steps fails. -/
theorem parsesTo_error_iff :
    ParsesTo tables input (.error error) ↔
      Run.start tables input = .error error ∨
        ∃ run, Run.start tables input = .ok run ∧ ∃ count,
          (∀ k < count, run.outcome tables k = .running) ∧
            run.outcome tables count = .failed error := by
  cases hstart : Run.start tables input with
  | error other => simp [ParsesTo, parseWithin, hstart]
  | ok run =>
      rw [parsesTo_iff hstart]
      simp only [Run.ComesTo, Run.answerWithin_eq_some_iff, reduceCtorEq, and_false, false_or,
        Except.error.injEq, Except.ok.injEq, exists_eq_left', exists_eq_right']
      constructor
      · rintro ⟨allowance, last, -, hbefore, hfailed⟩
        exact ⟨last, hbefore, hfailed⟩
      · rintro ⟨last, hbefore, hfailed⟩
        exact ⟨last + 1, last, Nat.lt_succ_self last, hbefore, hfailed⟩

theorem getLast?_ne_some_iff {list : List Symbol} {symbol : Symbol} :
    list.getLast? ≠ some symbol ↔
      list = [] ∨ ∃ last, list.getLast? = some last ∧ last ≠ symbol := by
  cases h : list.getLast? with
  | none => simp [List.getLast?_eq_none_iff.1 h]
  | some last =>
      have hne : list ≠ [] := by
        rintro rfl
        cases h
      simp [hne]

end Parsing

/-- A failure of parsing tells the truth.  The end-marker is said to be missing exactly
if the input does not end with it, and then no step is taken.  Every other failure is
that of a step, and the record of the run just before it shows the failure. -/
theorem failure_shown (tables : Tables) (input : List Symbol) :
    (∀ endMarker, ParsesTo tables input (.error (.missingEndMarker endMarker)) ↔
        endMarker = tables.endMarker ∧
          (input = [] ∨ ∃ last, input.getLast? = some last ∧ last ≠ tables.endMarker)) ∧
      ∀ error, ParsesTo tables input (.error error) ↔
        Run.start tables input = .error error ∨
          ∃ run, Run.start tables input = .ok run ∧ ∃ count,
            (∀ k < count, run.outcome tables k = .running) ∧
              run.outcome tables count = .failed error ∧
                (run.after tables count).trace.Shows tables input error := by
  have hsteps (error : ParseError) : ParsesTo tables input (.error error) ↔
      Run.start tables input = .error error ∨
        ∃ run, Run.start tables input = .ok run ∧ ∃ count,
          (∀ k < count, run.outcome tables k = .running) ∧
            run.outcome tables count = .failed error ∧
              (run.after tables count).trace.Shows tables input error := by
    rw [parsesTo_error_iff]
    refine or_congr_right (exists_congr fun run => and_congr_right fun hstart => ?_)
    obtain ⟨hinput, rfl⟩ := Run.start_eq_ok_iff.1 hstart
    refine exists_congr fun count => and_congr_right fun hbefore => ?_
    rw [← Run.outcome_eq_failed_iff hinput hbefore, and_self]
  refine ⟨fun endMarker => ?_, hsteps⟩
  rw [hsteps, ← getLast?_ne_some_iff, Run.start_eq_error_iff, ParseError.missingEndMarker.injEq]
  constructor
  · rintro (⟨hlast, heq⟩ | ⟨run, -, count, -, -, hshows⟩)
    · exact ⟨heq, hlast⟩
    · cases hshows
  · rintro ⟨heq, hlast⟩
    exact .inl ⟨hlast, heq⟩

end ShiftReduce
