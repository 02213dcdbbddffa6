import ShiftReduce.Proofs.Closed
import ShiftReduce.Proofs.Limit
import ShiftReduce.Proofs.Requests

/-!
# How a command line ends

A command line can ask for help, be misused, name tables that cannot be loaded, or
be *runnable*.  Then its input is parsed, within its limit if it has one.  The options
may be read by any reader that is documented.
`Concludes` lists what leads to each exit status.  The list is complete, and the
entries for different statuses exclude each other, so each status means exactly what
its entries say (`status_eq_iff`).

The input that is read always ends with the end-marker, so no run is refused at its
start, and none is asked for a step after its end.  The standard error opens with
words that belong to the status (`ExitStatus.Says`).  Only an input error sets the
status that blames the input.

`Output.Accounts` puts this together with what is printed.
-/

namespace ShiftReduce

/-! ## Openings of texts -/

/-- The text opens with the words. -/
def Opens (words text : String) : Prop := words.toList <+: text.toList

instance (words text : String) : Decidable (Opens words text) :=
  inferInstanceAs (Decidable (_ <+: _))

theorem opens_append (words rest : String) : Opens words (words ++ rest) := by
  rw [Opens, String.toList_append]
  exact List.prefix_append _ _

namespace Opens

variable {first second text : String}

theorem trans (h : Opens first second) (h' : Opens second text) : Opens first text :=
  List.IsPrefix.trans h h'

theorem append (h : Opens first text) (rest : String) : Opens first (text ++ rest) :=
  h.trans (opens_append text rest)

/-- A text opens with one thing only. -/
theorem excludes (h : Opens first text) (hfirst : ¬ Opens first second)
    (hsecond : ¬ Opens second first) : ¬ Opens second text := by
  intro h'
  rcases List.prefix_or_prefix_of_prefix h h' with hp | hp
  · exact hfirst hp
  · exact hsecond hp

end Opens

/-! ## Answers of a run -/

/-- A step of a run that has not finished fails because of the input or because of
the tables. -/
theorem Run.Step.blames {tables : Tables} {run next : Run} {error : ParseError}
    (hs : run.Step tables (.failed error) next) :
    error.blamesInput = true ∨ error.BlamesTables := by
  cases hs with
  | pastEnd => exact .inr trivial
  | unexpected => exact .inl rfl
  | defect => exact .inr trivial

/-- A parse that can start fails because of the input or because of the tables. -/
theorem blames_of_parseWithin {tables : Tables} {input : List Symbol}
    (hinput : input.getLast? = some tables.endMarker) {allowance : Nat} {error : ParseError}
    (h : parseWithin tables allowance input = some (.error error)) :
    error.blamesInput = true ∨ error.BlamesTables := by
  rw [parseWithin, Run.start_eq_ok_iff.2 ⟨hinput, rfl⟩] at h
  obtain ⟨last, -, hbefore, ⟨-, he⟩ | ⟨_, hfailed, he⟩⟩ := Run.answerWithin_eq_some_iff.1 h
  · cases he
  · obtain rfl := Except.error.inj he
    have hf := (Run.not_finished_after_iff rfl last).2 hbefore
    have hs := Run.step_after tables last { unread := input }
    rw [hfailed] at hs
    exact ((Run.step_eq_iff hf).1 hs).blames

theorem parseWithin_mono {tables : Tables} {input : List Symbol} {m n : Nat}
    {answer : Except ParseError Trace} (hle : m ≤ n)
    (h : parseWithin tables m input = some answer) : parseWithin tables n input = some answer := by
  unfold parseWithin at h ⊢
  cases hs : Run.start tables input with
  | error error => simpa only [hs] using h
  | ok run =>
      simp only [hs] at h ⊢
      exact Run.answerWithin_mono hle h

theorem parseWithin_none_of_running {tables : Tables} {input : List Symbol}
    (hinput : input.getLast? = some tables.endMarker) {allowance : Nat}
    (hrun : ∀ k < allowance, Run.outcome tables k { unread := input } = .running) :
    parseWithin tables allowance input = none := by
  simp only [parseWithin, Run.start_eq_ok_iff.2 ⟨hinput, rfl⟩, Run.answerWithin,
    Run.advance_eq_of_running hrun]

namespace CommandLine

/-! ## What a parse comes to -/

variable {invocation : Invocation} {read : String → Except ReadFailure String} {log : String}
variable {arguments : List String} {request : Request} {tables : Tables}
variable {filter : Log.Filter} {allowance : Nat} {output : Output}
variable {answer : Except ParseError Trace}

/-- The arguments ask for a parse, and its tables can be loaded. -/
structure Runnable (options : OptionReader) (read : String → Except ReadFailure String)
    (arguments : List String) (request : Request) (tables : Tables) : Prop where
  asks : Asks options arguments request
  loads : TableFile.load request.path (read request.path) = .ok tables

namespace Request

/-- The parse of the words, joined by spaces, has the answer and comes to it within its
limit. -/
def Answers (request : Request) (tables : Tables) (answer : Except ParseError Trace) : Prop :=
  ∃ allowance, (∀ limit ∈ request.limit, allowance ≤ limit) ∧
    parseWithin tables allowance
      (Input.read request.mode tables.endMarker (" ".intercalate request.inputWords)) = some answer

/-- The limit is spent before the parse has an answer. -/
def RunsOut (request : Request) (tables : Tables) : Prop :=
  ∃ limit ∈ request.limit, parseWithin tables limit
    (Input.read request.mode tables.endMarker (" ".intercalate request.inputWords)) = none

theorem getLast?_input (request : Request) (tables : Tables) :
    (request.input tables).getLast? = some tables.endMarker :=
  Input.getLast?_read ..

theorem Answers.unique {other : Except ParseError Trace} (h : request.Answers tables answer)
    (hother : request.Answers tables other) : answer = other := by
  obtain ⟨m, -, hm⟩ := h
  obtain ⟨n, -, hn⟩ := hother
  have hm' := parseWithin_mono (Nat.le_max_left m n) hm
  have hn' := parseWithin_mono (Nat.le_max_right m n) hn
  exact Option.some.inj (hm'.symm.trans hn')

theorem Answers.not_runsOut (h : request.Answers tables answer) : ¬ request.RunsOut tables := by
  obtain ⟨allowance, hlimit, hanswer⟩ := h
  rintro ⟨limit, hmem, hnone⟩
  cases hnone.symm.trans (parseWithin_mono (hlimit limit hmem) hanswer)

theorem Answers.blames (h : request.Answers tables answer) (error : ParseError)
    (herror : answer = .error error) : error.blamesInput = true ∨ error.BlamesTables := by
  obtain ⟨allowance, -, hanswer⟩ := h
  rw [herror] at hanswer
  exact blames_of_parseWithin (request.getLast?_input tables) hanswer

/-- The number of steps that are taken under a limit, up to the end of the run or up to
the limit. -/
def StepsTaken (tables : Tables) (run : Run) (limit : Option Nat) (count : Nat) : Prop :=
  (run.Takes tables count ∧ ∀ n ∈ limit, count ≤ n) ∨
    (count ∈ limit ∧ ∀ k < count, run.outcome tables k = .running)

/-- A parse ends with its answer, or it is given up at its limit. -/
theorem parse_cases
    (h : parseOutputWithin filter tables (request.input tables) request.limit allowance =
      some output) :
    (∃ count, StepsTaken tables { unread := request.input tables } request.limit count ∧
        output.stdout =
          transcript tables (Run.after tables count { unread := request.input tables }).events) ∧
      ((∃ answer, request.Answers tables answer ∧ output.Tells answer) ∨
        request.RunsOut tables ∧ output.status = .gaveUp ∧
          Opens "gave up after " output.stderr) := by
  have hinput := request.getLast?_input tables
  rcases parseOutputWithin_cases hinput h with
    ⟨steps, answer, hle, htakes, hanswer, htells, hstdout⟩ | ⟨limit, hlimit, hrun, hgivesUp⟩
  · have hwithin : ∀ limit ∈ request.limit, steps ≤ limit := by
      intro limit hlimit
      rwa [Option.mem_def.1 hlimit] at hle
    exact ⟨⟨steps, .inl ⟨htakes, hwithin⟩, hstdout⟩,
      .inl ⟨answer, ⟨steps, hwithin, hanswer⟩, htells⟩⟩
  · refine ⟨⟨limit, .inr ⟨hlimit, hrun⟩, hgivesUp.stdout⟩, .inr ⟨⟨limit, hlimit, ?_⟩, ?_⟩⟩
    · exact parseWithin_none_of_running hinput hrun
    · refine ⟨hgivesUp.status, ?_⟩
      rw [hgivesUp.stderr]
      exact (opens_append "gave up after " _).append _

/-- A parse that has an answer or whose limit is spent has an output. -/
theorem exists_parse (filter : Log.Filter)
    (h : (∃ answer, request.Answers tables answer) ∨ request.RunsOut tables) :
    ∃ allowance output, parseOutputWithin filter tables (request.input tables) request.limit
      allowance = some output := by
  have hinput := request.getLast?_input tables
  cases hlimit : request.limit with
  | some limit =>
      rcases Run.takes_or_running tables { unread := request.input tables } limit with
        ⟨steps, hle, htakes⟩ | hrun
      · obtain ⟨output, -, houtput, -⟩ := exists_output hinput filter htakes
        exact ⟨0, output, houtput _ _ hle⟩
      · obtain ⟨output, -, houtput⟩ := parseOutputWithin_of_running hinput filter hrun
        exact ⟨0, output, houtput 0⟩
  | none =>
      rcases h with ⟨answer, allowance, -, hanswer⟩ | ⟨limit, hmem, -⟩
      · rcases Run.takes_or_running tables { unread := request.input tables } allowance with
          ⟨steps, hle, htakes⟩ | hrun
        · obtain ⟨output, -, houtput, -⟩ := exists_output hinput filter htakes
          exact ⟨allowance, output, houtput _ _ hle⟩
        · cases (parseWithin_none_of_running hinput hrun).symm.trans hanswer
      · cases hlimit.symm.trans hmem

end Request

theorem UsageError.status_output (error : UsageError) (program : String) :
    (error.output program).status = .unusable := by
  cases error <;> rfl

theorem AsksForHelp.outputWithin_eq (h : AsksForHelp invocation.options arguments)
    (read : String → Except ReadFailure String) (log : String) (allowance : Nat) :
    invocation.outputWithin read log arguments allowance =
      some
        { helpOutput invocation.program with
          complaints := (Log.Reading.ofText log).complaints } := by
  simp only [Invocation.outputWithin, h.command, Option.map_some]

section

variable (documented : invocation.options.Documented)
include documented

theorem Misused.outputWithin_eq (h : Misused invocation.options arguments)
    (read : String → Except ReadFailure String) (log : String) (allowance : Nat) :
    ∃ error : UsageError, invocation.outputWithin read log arguments allowance =
      some
        { error.output invocation.program with
          complaints := (Log.Reading.ofText log).complaints } := by
  obtain ⟨error, hcommand⟩ := h.command documented
  exact ⟨error, by simp only [Invocation.outputWithin, hcommand, Option.map_some]⟩

theorem Asks.outputWithin_of_error (h : Asks invocation.options arguments request)
    {error : TableFile.LoadError}
    (hrefused : TableFile.load request.path (read request.path) = .error error) (log : String)
    (allowance : Nat) :
    invocation.outputWithin read log arguments allowance =
      some
        { status := .unusable
          stderr := error.message ++ "\n"
          complaints := (Log.Reading.ofText log).complaints } := by
  simp only [Invocation.outputWithin, h.command documented, Request.outputWithin, hrefused,
    Option.map_some]

namespace Runnable

theorem outputWithin_eq (h : Runnable invocation.options read arguments request tables)
    (log : String) (allowance : Nat) :
    invocation.outputWithin read log arguments allowance =
      (parseOutputWithin (Log.Reading.ofText log).filter tables (request.input tables)
        request.limit allowance).map fun output =>
          { output with
            stdout := request.listing tables ++ output.stdout
            complaints := (Log.Reading.ofText log).complaints } := by
  simp only [Invocation.outputWithin, h.asks.command documented, Request.outputWithin, h.loads,
    Request.runWithin, Option.map_map, Function.comp_def]

/-- A runnable command line prints the tables if that is asked for, and then the steps
that it takes.  It ends with the answer of its parse, or it is given up. -/
theorem output_cases (hrunnable : Runnable invocation.options read arguments request tables)
    (h : invocation.outputWithin read log arguments allowance = some output) :
    (∃ run count, Run.start tables (request.input tables) = .ok run ∧
        Request.StepsTaken tables run request.limit count ∧
        output.stdout =
          request.listing tables ++ transcript tables (run.after tables count).events) ∧
      ((∃ answer, request.Answers tables answer ∧ output.Tells answer) ∨
        request.RunsOut tables ∧ output.status = .gaveUp ∧
          Opens "gave up after " output.stderr) := by
  rw [hrunnable.outputWithin_eq documented, Option.map_eq_some_iff] at h
  obtain ⟨parsed, hparsed, rfl⟩ := h
  obtain ⟨⟨count, htaken, hstdout⟩, hends⟩ := Request.parse_cases hparsed
  have hstart := Run.start_eq_ok_iff.2 ⟨request.getLast?_input tables, rfl⟩
  exact ⟨⟨_, count, hstart, htaken, by rw [← hstdout]⟩, hends⟩

/-- A runnable command line tells the answer of its parse. -/
theorem tells (hrunnable : Runnable invocation.options read arguments request tables)
    (hanswers : request.Answers tables answer)
    (h : invocation.outputWithin read log arguments allowance = some output) :
    output.Tells answer := by
  obtain ⟨-, ⟨other, hother, htells⟩ | ⟨hrunsOut, -⟩⟩ := hrunnable.output_cases documented h
  · rwa [hanswers.unique hother]
  · exact absurd hrunsOut hanswers.not_runsOut

/-- A runnable command line whose limit is spent is given up. -/
theorem givesUp (hrunnable : Runnable invocation.options read arguments request tables)
    (hrunsOut : request.RunsOut tables)
    (h : invocation.outputWithin read log arguments allowance = some output) :
    output.status = .gaveUp ∧ Opens "gave up after " output.stderr := by
  obtain ⟨-, ⟨other, hother, -⟩ | ⟨-, hgivesUp⟩⟩ := hrunnable.output_cases documented h
  · exact absurd hrunsOut hother.not_runsOut
  · exact hgivesUp

theorem exists_output (hrunnable : Runnable invocation.options read arguments request tables)
    (hends : (∃ answer, request.Answers tables answer) ∨ request.RunsOut tables) (log : String) :
    ∃ allowance output, invocation.outputWithin read log arguments allowance = some output := by
  obtain ⟨allowance, parsed, hparsed⟩ :=
    Request.exists_parse (Log.Reading.ofText log).filter hends
  exact ⟨allowance, _, by rw [hrunnable.outputWithin_eq documented, hparsed, Option.map_some]⟩

end Runnable

end

/-! ## What is written to the standard error -/

/-- The words that open a refusal of the command line, of a table file or of loaded
tables. -/
def refusals : List String :=
  ["Unrecognized option: '", "Argument to option '", "Option '", "invalid --max-steps: ",
    "cannot read ", "line ", "table error: "]

/-- What the standard error says with each status. -/
inductive ExitStatus.Says : ExitStatus → String → Prop where
  | nothing : Says .success ""
  | inputError {text : String} (opens : Opens "input error:" text) : Says .rejected text
  /-- The usage goes to the standard output. -/
  | usage : Says .unusable ""
  | refusal {words text : String} (mem : words ∈ refusals) (opens : Opens words text) :
      Says .unusable text
  | gaveUp {text : String} (opens : Opens "gave up after " text) : Says .gaveUp text

namespace ExitStatus.Says

theorem of_optionError (error : OptionError) : Says .unusable (error.message ++ "\n") := by
  cases error with
  | unrecognized written =>
      exact .refusal (by simp [refusals])
        (((opens_append "Unrecognized option: '" written).append _).append _)
  | missingValue written =>
      exact .refusal (by simp [refusals])
        (((opens_append "Argument to option '" written).append _).append _)
  | unexpectedValue written =>
      exact .refusal (by simp [refusals]) (((opens_append "Option '" written).append _).append _)
  | «repeated» flag =>
      exact .refusal (by simp [refusals]) (((opens_append "Option '" flag.name).append _).append _)

theorem of_usageError (error : UsageError) (program : String) :
    Says .unusable (error.output program).stderr := by
  cases error with
  | options error => exact of_optionError error
  | limit fault =>
      exact .refusal (by simp [refusals])
        ((opens_append "invalid --max-steps: " fault.message).append _)
  | noTables => exact .usage

theorem of_loadError (error : TableFile.LoadError) : Says .unusable (error.message ++ "\n") := by
  cases error with
  | unreadable path reason =>
      exact .refusal (by simp [refusals])
        ((((opens_append "cannot read " path).append _).append _).append _)
  | line number error =>
      exact .refusal (by simp [refusals])
        ((((opens_append "line " (toString number)).append _).append _).append _)

/-- The failures that come up in a run that has not finished are not called usage
errors. -/
theorem of_parseError {error : ParseError} (h : error.blamesInput = true ∨ error.BlamesTables) :
    (failureStatus error).Says (error.report ++ "\n") := by
  cases error with
  | unexpectedSymbol state symbol position =>
      have hopens := (((((opens_append "input error: no action for state " (toString state)).append
        " and symbol `").append symbol).append "` at position ").append (toString position)).append
          "\n"
      exact .inputError (Opens.trans (by decide) hopens)
  | reduction error =>
      exact .refusal (by simp [refusals]) ((opens_append "table error: " error.message).append _)
  | shiftPastEnd state =>
      exact .refusal (by simp [refusals]) ((opens_append "table error: " _).append _)
  | missingEndMarker | finished => simp [ParseError.blamesInput, ParseError.BlamesTables] at h

theorem of_tells (htells : output.Tells answer)
    (h : ∀ error, answer = .error error → error.blamesInput = true ∨ error.BlamesTables) :
    output.status.Says output.stderr := by
  cases answer with
  | ok trace =>
      rw [htells.1, htells.2]
      exact .nothing
  | error error =>
      rw [htells.1, htells.2]
      exact of_parseError (h error rfl)

variable {status : ExitStatus} {text : String}

/-- Only an input error is called one. -/
theorem opens_inputError_iff (h : status.Says text) :
    Opens "input error:" text ↔ status = .rejected := by
  have hrefusals : ∀ words ∈ refusals,
      ¬ Opens words "input error:" ∧ ¬ Opens "input error:" words := by decide
  cases h with
  | nothing | usage => decide
  | inputError opens => simp [opens]
  | refusal mem opens =>
      have hnot := opens.excludes (hrefusals _ mem).1 (hrefusals _ mem).2
      simp [hnot]
  | gaveUp opens =>
      have hnot : ¬ Opens "input error:" text := opens.excludes (by decide) (by decide)
      simp [hnot]

/-- Nothing is called a usage error. -/
theorem not_opens_usageError (h : status.Says text) : ¬ Opens "usage error:" text := by
  have hrefusals : ∀ words ∈ refusals,
      ¬ Opens words "usage error:" ∧ ¬ Opens "usage error:" words := by decide
  cases h with
  | nothing | usage => decide
  | inputError opens => exact opens.excludes (by decide) (by decide)
  | refusal mem opens => exact opens.excludes (hrefusals _ mem).1 (hrefusals _ mem).2
  | gaveUp opens => exact opens.excludes (by decide) (by decide)

end ExitStatus.Says

/-! ## Statuses -/

/-- What leads to each status. -/
inductive Concludes (options : OptionReader) (read : String → Except ReadFailure String)
    (arguments : List String) : ExitStatus → Prop where
  | help (asks : AsksForHelp options arguments) : Concludes options read arguments .success
  | accepted {request : Request} {tables : Tables} {trace : Trace}
      (runnable : Runnable options read arguments request tables)
      (answers : request.Answers tables (.ok trace)) : Concludes options read arguments .success
  | rejected {request : Request} {tables : Tables} {state : State} {symbol : Symbol}
      {position : Nat} (runnable : Runnable options read arguments request tables)
      (answers : request.Answers tables (.error (.unexpectedSymbol state symbol position))) :
      Concludes options read arguments .rejected
  | misused (misused : Misused options arguments) : Concludes options read arguments .unusable
  | unloadable {request : Request} {error : TableFile.LoadError}
      (asks : Asks options arguments request)
      (refused : TableFile.load request.path (read request.path) = .error error) :
      Concludes options read arguments .unusable
  | defective {request : Request} {tables : Tables} {error : ParseError}
      (runnable : Runnable options read arguments request tables) (blames : error.BlamesTables)
      (answers : request.Answers tables (.error error)) :
      Concludes options read arguments .unusable
  | gaveUp {request : Request} {tables : Tables}
      (runnable : Runnable options read arguments request tables)
      (runsOut : request.RunsOut tables) : Concludes options read arguments .gaveUp

section

variable (documented : invocation.options.Documented)
include documented

/-- The list is complete. -/
theorem exists_concludes
    (h : invocation.outputWithin read log arguments allowance = some output) :
    ∃ status, Concludes invocation.options read arguments status := by
  rcases asks_cases documented arguments with hhelp | hmisused | ⟨request, hasks⟩
  · exact ⟨_, .help hhelp⟩
  · exact ⟨_, .misused hmisused⟩
  cases hload : TableFile.load request.path (read request.path) with
  | error error => exact ⟨_, .unloadable hasks hload⟩
  | ok tables =>
      have hrunnable : Runnable invocation.options read arguments request tables := ⟨hasks, hload⟩
      obtain ⟨-, ⟨answer, hanswers, -⟩ | ⟨hrunsOut, -⟩⟩ := hrunnable.output_cases documented h
      · cases answer with
        | ok trace => exact ⟨_, .accepted hrunnable hanswers⟩
        | error error =>
            rcases hanswers.blames error rfl with hinput | htables
            · obtain ⟨state, symbol, position, rfl⟩ := ParseError.eq_unexpectedSymbol hinput
              exact ⟨_, .rejected hrunnable hanswers⟩
            · exact ⟨_, .defective hrunnable htables hanswers⟩
      · exact ⟨_, .gaveUp hrunnable hrunsOut⟩

namespace Concludes

variable {status : ExitStatus}

/-- A command line ends with the status that is concluded. -/
theorem status_eq (hconcludes : Concludes invocation.options read arguments status)
    (h : invocation.outputWithin read log arguments allowance = some output) :
    output.status = status := by
  cases hconcludes with
  | help hhelp =>
      rw [hhelp.outputWithin_eq] at h
      obtain rfl := Option.some.inj h
      rfl
  | misused hmisused =>
      obtain ⟨error, heq⟩ := hmisused.outputWithin_eq documented read log allowance
      obtain rfl := Option.some.inj (heq.symm.trans h)
      exact error.status_output invocation.program
  | unloadable hasks hrefused =>
      rw [hasks.outputWithin_of_error documented hrefused] at h
      obtain rfl := Option.some.inj h
      rfl
  | accepted hrunnable hanswers => exact (hrunnable.tells documented hanswers h).1
  | rejected hrunnable hanswers => exact (hrunnable.tells documented hanswers h).1
  | @defective _ _ error hrunnable hblames hanswers =>
      rw [(hrunnable.tells documented hanswers h).1]
      cases error with
      | reduction | shiftPastEnd => rfl
      | unexpectedSymbol | missingEndMarker | finished => cases hblames
  | gaveUp hrunnable hrunsOut => exact (hrunnable.givesUp documented hrunsOut h).1

/-- The standard error says what belongs to the status. -/
theorem says_stderr (hconcludes : Concludes invocation.options read arguments status)
    (h : invocation.outputWithin read log arguments allowance = some output) :
    output.status.Says output.stderr := by
  cases hconcludes with
  | help hhelp =>
      rw [hhelp.outputWithin_eq] at h
      obtain rfl := Option.some.inj h
      exact .nothing
  | misused hmisused =>
      obtain ⟨error, heq⟩ := hmisused.outputWithin_eq documented read log allowance
      obtain rfl := Option.some.inj (heq.symm.trans h)
      change ExitStatus.Says (error.output _).status (error.output _).stderr
      rw [error.status_output]
      exact .of_usageError error invocation.program
  | @unloadable _ error hasks hrefused =>
      rw [hasks.outputWithin_of_error documented hrefused] at h
      obtain rfl := Option.some.inj h
      exact .of_loadError error
  | accepted hrunnable hanswers | rejected hrunnable hanswers | defective hrunnable _ hanswers =>
      exact .of_tells (hrunnable.tells documented hanswers h) hanswers.blames
  | gaveUp hrunnable hrunsOut =>
      obtain ⟨hstatus, hopens⟩ := hrunnable.givesUp documented hrunsOut h
      rw [hstatus]
      exact .gaveUp hopens

/-- A command line from which a status is concluded ends. -/
theorem exists_output (hconcludes : Concludes invocation.options read arguments status)
    (log : String) :
    ∃ allowance output, invocation.outputWithin read log arguments allowance = some output := by
  cases hconcludes with
  | help hhelp => exact ⟨0, _, hhelp.outputWithin_eq read log 0⟩
  | misused hmisused =>
      obtain ⟨error, heq⟩ := hmisused.outputWithin_eq documented read log 0
      exact ⟨0, _, heq⟩
  | unloadable hasks hrefused =>
      exact ⟨0, _, hasks.outputWithin_of_error documented hrefused log 0⟩
  | accepted hrunnable hanswers | rejected hrunnable hanswers | defective hrunnable _ hanswers =>
      exact hrunnable.exists_output documented (.inl ⟨_, hanswers⟩) log
  | gaveUp hrunnable hrunsOut => exact hrunnable.exists_output documented (.inr hrunsOut) log

end Concludes

/-- The entries for different statuses exclude each other. -/
theorem status_eq_iff (h : invocation.outputWithin read log arguments allowance = some output)
    {status : ExitStatus} :
    output.status = status ↔ Concludes invocation.options read arguments status := by
  constructor
  · rintro rfl
    obtain ⟨status, hconcludes⟩ := exists_concludes documented h
    rwa [hconcludes.status_eq documented h]
  · exact fun hconcludes => hconcludes.status_eq documented h

end

theorem ExitStatus.code_inj (status other : ExitStatus) :
    status.code = other.code ↔ status = other := by
  cases status <;> cases other <;> decide

/-- How an output accounts for its command line.  The log and the complaints about its
filter are left out. -/
structure Output.Accounts (options : OptionReader) (read : String → Except ReadFailure String)
    (arguments : List String) (output : Output) : Prop where
  success : output.status.code = 0 ↔ Concludes options read arguments .success
  rejected : output.status.code = 1 ↔ Concludes options read arguments .rejected
  unusable : output.status.code = 2 ↔ Concludes options read arguments .unusable
  gaveUp : output.status.code = 3 ↔ Concludes options read arguments .gaveUp
  /-- There are no other statuses. -/
  bounded : output.status.code ≤ 3
  inputError : Opens "input error:" output.stderr ↔ output.status.code = 1
  usageError : ¬ Opens "usage error:" output.stderr
  /-- The tables are printed if that is asked for, and then a line for each step that was
  taken. -/
  stdout : ∀ request tables, Runnable options read arguments request tables →
    ∃ run count,
      Run.start tables
          (Input.read request.mode tables.endMarker (" ".intercalate request.inputWords)) =
        .ok run ∧
      Request.StepsTaken tables run request.limit count ∧
      output.stdout =
        (if request.printTables then tables.listing ++ "\n" else "") ++
          transcript tables (run.after tables count).events

theorem Output.accounts (documented : invocation.options.Documented)
    (h : invocation.outputWithin read log arguments allowance = some output) :
    output.Accounts invocation.options read arguments := by
  have hcode (status : ExitStatus) : output.status.code = status.code ↔
      Concludes invocation.options read arguments status :=
    (ExitStatus.code_inj output.status status).trans (status_eq_iff documented h)
  obtain ⟨status, hconcludes⟩ := exists_concludes documented h
  have hsays := hconcludes.says_stderr documented h
  exact
    { success := hcode .success
      rejected := hcode .rejected
      unusable := hcode .unusable
      gaveUp := hcode .gaveUp
      bounded := by cases output.status <;> decide
      inputError :=
        hsays.opens_inputError_iff.trans (ExitStatus.code_inj output.status .rejected).symm
      usageError := hsays.not_opens_usageError
      stdout := fun _ _ hrunnable => (hrunnable.output_cases documented h).1 }

/-- Every input that is read can be started on, and its parse never fails for want of an
end-marker or after its end.  With any reader of options that is documented, a command line
ends if a status is concluded from it, and when it ends its output accounts for it. -/
theorem commandLine_accounts :
    (∀ mode tables text,
      (∃ run, Run.start tables (Input.read mode tables.endMarker text) = .ok run) ∧
        ∀ allowance error,
          parseWithin tables allowance (Input.read mode tables.endMarker text) =
              some (.error error) →
            error ≠ .finished ∧ ∀ endMarker, error ≠ .missingEndMarker endMarker) ∧
      ∀ invocation : Invocation, invocation.options.Documented → ∀ read log arguments,
        (∀ status, Concludes invocation.options read arguments status →
          ∃ allowance output,
            invocation.outputWithin read log arguments allowance = some output) ∧
        ∀ allowance output,
          invocation.outputWithin read log arguments allowance = some output →
            output.Accounts invocation.options read arguments := by
  refine ⟨fun mode tables text => ⟨?_, ?_⟩,
    fun invocation documented read log arguments => ⟨?_, ?_⟩⟩
  · exact ⟨_, Run.start_eq_ok_iff.2 ⟨Input.getLast?_read .., rfl⟩⟩
  · intro allowance error h
    have hblames := blames_of_parseWithin (Input.getLast?_read ..) h
    constructor
    · rintro rfl
      simp [ParseError.blamesInput, ParseError.BlamesTables] at hblames
    · rintro endMarker rfl
      simp [ParseError.blamesInput, ParseError.BlamesTables] at hblames
  · exact fun status hconcludes => hconcludes.exists_output documented log
  · exact fun allowance output h => Output.accounts documented h

/-- A command line that prints its tables, takes a step and is rejected. -/
theorem commandLine_accounts_printing :
    let read := fun _ => .ok "action 0 x s1\n"
    let arguments := ["-pn3", "t", "x", "y"]
    let tables := Tables.ofDeclarations [.action 0 "x" (.shift 1)]
    let output : Output :=
      { status := .rejected
        stdout := "ACTION TABLE:\nState 0, Symbol 'x' -> s1\n\nGOTO TABLE:\n\nPRODUCTIONS:\n\n" ++
          "Shift: x -> State 1\n"
        stderr := "input error: no action for state 1 and symbol `y` at position 1\n" }
    OptionReader.Documented Arguments.read ∧ outputWithin read "" arguments 0 = some output ∧
      Runnable Arguments.read read arguments ⟨"t", ["x", "y"], .words, true, some 3⟩ tables ∧
      output.status.code = 1 ∧ Concludes Arguments.read read arguments .rejected ∧
      Opens "input error:" output.stderr ∧
      ∃ run count, Run.start tables ["x", "y", "$"] = .ok run ∧
        Request.StepsTaken tables run (some 3) count ∧
        output.stdout =
          tables.listing ++ "\n" ++ transcript tables (run.after tables count).events := by
  intro read arguments tables output
  have houtput : outputWithin read "" arguments 0 = some output := by decide
  have hrunnable :
      Runnable Arguments.read read arguments ⟨"t", ["x", "y"], .words, true, some 3⟩ tables :=
    ⟨(asks_iff documented_read).2 rfl, rfl⟩
  obtain ⟨-, haccounts⟩ := commandLine_accounts.2 .standard documented_read read "" arguments
  have haccounts := haccounts 0 output houtput
  obtain ⟨run, count, hstart, htaken, hstdout⟩ := haccounts.stdout _ _ hrunnable
  exact ⟨documented_read, houtput, hrunnable, rfl, haccounts.rejected.1 rfl,
    haccounts.inputError.2 rfl, run, count, hstart, htaken, hstdout⟩

end CommandLine

end ShiftReduce
