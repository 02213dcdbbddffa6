import ShiftReduce.CommandLine.Output
import ShiftReduce.Proofs.LifeCycle

/-!
# Runs under a limit

A run *takes* a number of steps if it comes to its end with the last of them
(`Run.Takes`).  A run that never ends takes no number of steps.

A limit that the run does not exceed makes no difference to the output
(`exists_output`).  The last step allowed may be the one that ends the run.  Under a
smaller limit the output tells what was done up to there and no more
(`parseOutputWithin_of_running`).  So a limit only cuts the output short
(`limited_output`).
-/

namespace ShiftReduce

open CommandLine

namespace Run

variable {tables : Tables} {run next : Run}

/-- The last of the steps is the first that does not come out as `running`. -/
def Takes (tables : Tables) (run : Run) (steps : Nat) : Prop :=
  ∃ last, steps = last + 1 ∧ (∀ k < last, run.outcome tables k = .running) ∧
    run.outcome tables last ≠ .running

/-- Within a number of steps a run comes to its end, or it goes on. -/
theorem takes_or_running (tables : Tables) (run : Run) (count : Nat) :
    (∃ steps ≤ count, run.Takes tables steps) ∨ ∀ k < count, run.outcome tables k = .running := by
  by_cases hrun : ∀ k < count, run.outcome tables k = .running
  · exact .inr hrun
  · obtain ⟨last, hlt, hbefore, hend⟩ := exists_end hrun
    exact .inl ⟨last + 1, hlt, last, rfl, hbefore, hend⟩

theorem Takes.lt_of_running {steps count : Nat} (h : run.Takes tables steps)
    (hrun : ∀ k < count, run.outcome tables k = .running) : count < steps := by
  obtain ⟨last, rfl, -, hend⟩ := h
  refine Nat.lt_succ_of_le (Nat.le_of_not_lt fun hlt => ?_)
  exact hend (hrun last hlt)

/-! ## Events -/

/-- A step adds to the events at the end. -/
theorem Step.events_prefix_next {outcome : Outcome} (hs : run.Step tables outcome next) :
    run.events <+: next.events := by
  cases hs with
  | shift => exact ⟨_, (shift_events ..).symm⟩
  | reduce => exact ⟨_, (replace_events ..).symm⟩
  | accept => exact ⟨_, (accept_events ..).symm⟩
  | pastEnd | unexpected | defect => exact List.prefix_refl _

theorem events_prefix_of_le (tables : Tables) (run : Run) {i j : Nat} (hij : i ≤ j) :
    (run.after tables i).events <+: (run.after tables j).events := by
  obtain ⟨more, rfl⟩ := Nat.exists_eq_add_of_le hij
  induction more with
  | zero => exact List.prefix_refl _
  | succ more ih =>
      rcases step_after_cases tables (i + more) run with ⟨-, hs⟩ | ⟨-, -, hafter⟩
      · exact (ih (Nat.le_add_right _ _)).trans hs.events_prefix_next
      · rw [← Nat.add_assoc, hafter]
        exact ih (Nat.le_add_right _ _)

theorem after_of_takes {steps count : Nat} (h : run.Takes tables steps) (hle : steps ≤ count) :
    run.after tables count = run.after tables steps := by
  obtain ⟨last, rfl, -, hend⟩ := h
  obtain ⟨more, rfl⟩ := Nat.exists_eq_add_of_le hle
  rw [after_add, after_of_finished (finished_of_outcome_ne hend)]

/-- A run has never done more than when it ends. -/
theorem Takes.events_prefix_end {steps : Nat} (h : run.Takes tables steps) (count : Nat) :
    (run.after tables count).events <+: (run.after tables steps).events := by
  rcases Nat.le_total count steps with hle | hle
  · exact events_prefix_of_le tables run hle
  · exact ⟨[], by rw [List.append_nil, after_of_takes h hle]⟩

/-- There is an event for every step of a run that goes on. -/
theorem length_events_of_running (h : run.events = []) {count : Nat}
    (hrun : ∀ k < count, run.outcome tables k = .running) :
    (run.after tables count).events.length = count := by
  rw [length_events_after h, List.countP_eq_length.2, List.length_range]
  intro k hk
  rw [hrun k (List.mem_range.1 hk)]
  rfl

/-- What a run does while it goes on is the beginning of all it does. -/
theorem take_events_of_running (h : run.events = []) {count : Nat}
    (hrun : ∀ k < count, run.outcome tables k = .running) {later : Nat} (hle : count ≤ later) :
    (run.after tables later).events.take count = (run.after tables count).events := by
  have hprefix := List.prefix_iff_eq_take.1 (events_prefix_of_le tables run hle)
  rw [length_events_of_running h hrun] at hprefix
  exact hprefix.symm

/-! ## Visited stacks -/

/-- The stacks visited under an allowance that is spent in two parts. -/
theorem visitedStacks_add (tables : Tables) (m n : Nat) (run : Run) :
    run.visitedStacks tables (m + n) = run.visitedStacks tables m ++
      if (run.advance tables m).outcome = .running
      then (run.advance tables m).run.visitedStacks tables n else [] := by
  induction m generalizing run with
  | zero => simp [visitedStacks, advance]
  | succ m ih =>
      rw [Nat.succ_add, visitedStacks, visitedStacks, advance]
      split
      · rw [ih, List.cons_append]
      · next outcome last hne _ => simp [show outcome ≠ Outcome.running from hne]

/-- A run that comes to its end within an allowance does not spend the rest. -/
theorem advance_of_end {last allowance : Nat}
    (hbefore : ∀ k < last, run.outcome tables k = .running)
    (hend : run.outcome tables last ≠ .running) (hle : last + 1 ≤ allowance) :
    ∃ spare, run.advance tables allowance =
      ⟨spare, run.outcome tables last, run.after tables (last + 1)⟩ := by
  obtain ⟨spare, rfl⟩ := Nat.exists_eq_add_of_le hle
  refine ⟨spare, ?_⟩
  rw [← advance_eq_of_end spare hbefore hend, Nat.add_assoc, Nat.add_comm 1]

/-- After the end no more stacks are visited. -/
theorem Takes.visitedStacks {steps allowance : Nat} (h : run.Takes tables steps)
    (hle : steps ≤ allowance) :
    run.visitedStacks tables allowance = run.visitedStacks tables steps := by
  obtain ⟨last, rfl, hbefore, hend⟩ := h
  obtain ⟨more, rfl⟩ := Nat.exists_eq_add_of_le hle
  have hadvance := advance_eq_of_end 0 hbefore hend
  rw [visitedStacks_add, hadvance, if_neg hend, List.append_nil]

end Run

/-- A transcript of more events begins with that of the first of them. -/
theorem exists_transcript_eq_append {tables : Tables} {events more : List Event}
    (h : events <+: more) : ∃ rest, transcript tables more = transcript tables events ++ rest := by
  obtain ⟨later, rfl⟩ := h
  exact ⟨transcript tables later, by simp [transcript]⟩

/-! ## Outputs -/

namespace CommandLine

/-- The output says what a parse came to. -/
def Output.Tells (output : Output) : Except ParseError Trace → Prop
  | .ok _ => output.status = .success ∧ output.stderr = ""
  | .error error => output.status = failureStatus error ∧ output.stderr = error.report ++ "\n"

/-- The output of a run that was given up at a limit.  It tells the first events, as
many as the limit allows. -/
structure Output.GivesUp (tables : Tables) (run : Run) (limit : Nat) (output : Output) : Prop where
  status : output.status = .gaveUp
  stderr : output.stderr = s!"gave up after {limit} steps\n"
  stdout : output.stdout = transcript tables (run.after tables limit).events
  length_events : (run.after tables limit).events.length = limit
  events : ∀ later, limit ≤ later →
    (run.after tables later).events.take limit = (run.after tables limit).events

/-- What the one prints is the beginning of what the other prints. -/
def Output.Begins (output longer : Output) : Prop := ∃ rest, longer.stdout = output.stdout ++ rest

variable {tables : Tables} {input : List Symbol} {steps : Nat}

/-- A run that comes to its end has one output, under every limit and every allowance
that it does not exceed. -/
theorem exists_output (hinput : input.getLast? = some tables.endMarker) (filter : Log.Filter)
    (h : Run.Takes tables { unread := input } steps) :
    ∃ output answer,
      (∀ limit allowance, steps ≤ Option.getD limit allowance →
        parseOutputWithin filter tables input limit allowance = some output) ∧
      (∀ allowance, steps ≤ allowance → parseWithin tables allowance input = some answer) ∧
      output.Tells answer ∧
      output.stdout = transcript tables (Run.after tables steps { unread := input }).events := by
  have hstart : Run.start tables input = .ok { unread := input } :=
    Run.start_eq_ok_iff.2 ⟨hinput, rfl⟩
  have hvisited := fun allowance (hle : steps ≤ allowance) => h.visitedStacks hle
  obtain ⟨last, rfl, hbefore, hend⟩ := h
  have hadvance := fun allowance (hle : last + 1 ≤ allowance) =>
    Run.advance_of_end hbefore hend hle
  let run := Run.after tables (last + 1) { unread := input }
  let stdout := transcript tables run.events
  let log := startLog filter tables input ++ stepLog filter tables { unread := input } (last + 1)
  cases ho : Run.outcome tables last { unread := input } with
  | running => exact absurd ho hend
  | accepted =>
      refine ⟨{ status := .success, stdout, log }, .ok run.trace,
        fun limit allowance hle => ?_, fun allowance hle => ?_, ⟨rfl, rfl⟩, rfl⟩
      · obtain ⟨spare, ha⟩ := hadvance _ hle
        simp only [parseOutputWithin, hstart, ha, ho, stepLog, hvisited _ hle, stdout, log, run]
      · obtain ⟨spare, ha⟩ := hadvance _ hle
        simp only [parseWithin, hstart, Run.answerWithin, ha, ho, run]
  | failed error =>
      refine ⟨{ status := failureStatus error, stdout, stderr := error.report ++ "\n", log },
        .error error, fun limit allowance hle => ?_, fun allowance hle => ?_, ⟨rfl, rfl⟩, rfl⟩
      · obtain ⟨spare, ha⟩ := hadvance _ hle
        simp only [parseOutputWithin, hstart, ha, ho, stepLog, hvisited _ hle, stdout, log, run]
      · obtain ⟨spare, ha⟩ := hadvance _ hle
        simp only [parseWithin, hstart, Run.answerWithin, ha, ho]

/-- A run that goes on up to the limit is given up. -/
theorem parseOutputWithin_of_running (hinput : input.getLast? = some tables.endMarker)
    (filter : Log.Filter) {limit : Nat}
    (hrun : ∀ k < limit, Run.outcome tables k { unread := input } = .running) :
    ∃ output : Output, output.GivesUp tables { unread := input } limit ∧
      ∀ allowance, parseOutputWithin filter tables input (some limit) allowance = some output := by
  have hstart : Run.start tables input = .ok { unread := input } :=
    Run.start_eq_ok_iff.2 ⟨hinput, rfl⟩
  let output : Output :=
    { status := .gaveUp
      stdout := transcript tables (Run.after tables limit { unread := input }).events
      stderr := s!"gave up after {limit} steps\n"
      log := startLog filter tables input ++ stepLog filter tables { unread := input } limit }
  refine ⟨output, ?_, fun allowance => ?_⟩
  · exact {
      status := rfl
      stderr := rfl
      stdout := rfl
      length_events := Run.length_events_of_running rfl hrun
      events := fun later => Run.take_events_of_running rfl hrun }
  · simp only [parseOutputWithin, hstart, Option.getD_some, Run.advance_eq_of_running hrun,
      Option.map_some, output]

/-- Without a limit a run that goes on has no output yet. -/
theorem parseOutputWithin_none_of_running (hinput : input.getLast? = some tables.endMarker)
    (filter : Log.Filter) {allowance : Nat}
    (hrun : ∀ k < allowance, Run.outcome tables k { unread := input } = .running) :
    parseOutputWithin filter tables input none allowance = none := by
  simp only [parseOutputWithin, Run.start_eq_ok_iff.2 ⟨hinput, rfl⟩, Option.getD_none,
    Run.advance_eq_of_running hrun, Option.map_none]

/-- An output says what the parse came to, or it comes from a run that was given up. -/
theorem parseOutputWithin_cases (hinput : input.getLast? = some tables.endMarker)
    {filter : Log.Filter} {limit : Option Nat} {allowance : Nat} {output : Output}
    (h : parseOutputWithin filter tables input limit allowance = some output) :
    (∃ steps answer, steps ≤ limit.getD allowance ∧ Run.Takes tables { unread := input } steps ∧
        parseWithin tables steps input = some answer ∧ output.Tells answer ∧
        output.stdout = transcript tables (Run.after tables steps { unread := input }).events) ∨
      ∃ n, limit = some n ∧ (∀ k < n, Run.outcome tables k { unread := input } = .running) ∧
        output.GivesUp tables { unread := input } n := by
  rcases Run.takes_or_running tables { unread := input } (limit.getD allowance) with
    ⟨steps, hle, htakes⟩ | hrun
  · obtain ⟨ended, answer, hended, hanswer, htells, hstdout⟩ := exists_output hinput filter htakes
    obtain rfl : ended = output := Option.some.inj ((hended limit allowance hle).symm.trans h)
    exact .inl ⟨steps, answer, hle, htakes, hanswer steps (Nat.le_refl _), htells, hstdout⟩
  · cases limit with
    | none =>
        have hnone := parseOutputWithin_none_of_running hinput filter hrun
        cases hnone.symm.trans h
    | some n =>
        obtain ⟨givenUp, hgivesUp, hgivenUp⟩ := parseOutputWithin_of_running hinput filter hrun
        obtain rfl : givenUp = output := Option.some.inj ((hgivenUp allowance).symm.trans h)
        exact .inr ⟨n, rfl, hrun, hgivesUp⟩

/-- What is printed under a limit is the beginning of what is printed under a larger
one, or under none. -/
theorem begins_of_le (hinput : input.getLast? = some tables.endMarker) {filter : Log.Filter}
    {limit : Nat} {larger : Option Nat} (hle : ∀ n ∈ larger, limit ≤ n) {allowance : Nat}
    {output longer : Output}
    (h : parseOutputWithin filter tables input (some limit) allowance = some output)
    (hlonger : parseOutputWithin filter tables input larger allowance = some longer) :
    output.Begins longer := by
  have hstdout : output.stdout =
      transcript tables (Run.after tables limit { unread := input }).events := by
    rcases parseOutputWithin_cases hinput h with
      ⟨steps, _, hsteps, htakes, -, -, hstdout⟩ | ⟨n, hn, -, hgivesUp⟩
    · rw [hstdout, Run.after_of_takes htakes (show steps ≤ limit from hsteps)]
    · obtain rfl := Option.some.inj hn
      exact hgivesUp.stdout
  rw [Output.Begins, hstdout]
  rcases parseOutputWithin_cases hinput hlonger with
    ⟨steps, _, -, htakes, -, -, hstdout⟩ | ⟨n, rfl, -, hgivesUp⟩
  · rw [hstdout]
    exact exists_transcript_eq_append (htakes.events_prefix_end limit)
  · rw [hgivesUp.stdout]
    exact exists_transcript_eq_append (Run.events_prefix_of_le tables _ (hle n rfl))

end CommandLine

/-- A limit only cuts the output of a run short.  If the run does not exceed it, the
output is the one without a limit, and it says what the parse comes to.  If it does,
the first events are told and the run is given up.  So under a larger limit, or under
none, no less is printed. -/
theorem limited_output {tables : Tables} {input : List Symbol}
    (hinput : input.getLast? = some tables.endMarker) (filter : Log.Filter) :
    ∃ run, Run.start tables input = .ok run ∧ ∀ limit,
      (∀ steps, run.Takes tables steps → steps ≤ limit → ∃ output answer,
        (∀ allowance,
          parseOutputWithin filter tables input (some limit) allowance = some output) ∧
        (∀ allowance, steps ≤ allowance →
          parseOutputWithin filter tables input none allowance = some output ∧
            parseWithin tables allowance input = some answer) ∧
        output.Tells answer ∧
        output.stdout = transcript tables (run.after tables steps).events) ∧
      ((∀ steps, run.Takes tables steps → limit < steps) →
        ∃ output : Output, output.GivesUp tables run limit ∧ output.status.code = 3 ∧
          ∀ allowance,
            parseOutputWithin filter tables input (some limit) allowance = some output) ∧
      ∀ larger : Option Nat, (∀ n ∈ larger, limit ≤ n) → ∀ allowance output longer,
        parseOutputWithin filter tables input (some limit) allowance = some output →
        parseOutputWithin filter tables input larger allowance = some longer →
        output.Begins longer := by
  refine ⟨{ unread := input }, Run.start_eq_ok_iff.2 ⟨hinput, rfl⟩, fun limit => ⟨?_, ?_, ?_⟩⟩
  · intro steps htakes hle
    obtain ⟨output, answer, houtput, hanswer, htells⟩ := exists_output hinput filter htakes
    exact ⟨output, answer, fun allowance => houtput (some limit) allowance hle,
      fun allowance hall => ⟨houtput none allowance hall, hanswer allowance hall⟩, htells⟩
  · intro hexceeds
    rcases Run.takes_or_running tables { unread := input } limit with ⟨steps, hle, htakes⟩ | hrun
    · exact absurd (hexceeds steps htakes) (Nat.not_lt_of_le hle)
    · obtain ⟨output, hgivesUp, houtput⟩ := parseOutputWithin_of_running hinput filter hrun
      exact ⟨output, hgivesUp, by rw [hgivesUp.status]; rfl, houtput⟩
  · intro larger hle allowance output longer h hlonger
    exact begins_of_le hinput hle h hlonger

/-- The run on `x` takes three steps, the last of which is the one that accepts. -/
theorem limited_output_single :
    let tables := Tables.ofDeclarations
      [.production 1 ⟨"E", .symbols ["x"]⟩, .action 0 "x" (.shift 2), .action 2 "$" (.reduce 1),
        .action 1 "$" .accept, .goto 0 "E" 1]
    ["x", "$"].getLast? = some tables.endMarker ∧
      Run.Takes tables { unread := ["x", "$"] } 3 ∧
      ∃ unlimited limited : Output,
        (∀ allowance, 3 ≤ allowance →
          parseOutputWithin {} tables ["x", "$"] none allowance = some unlimited) ∧
        parseOutputWithin {} tables ["x", "$"] (some 3) 0 = some unlimited ∧
        parseOutputWithin {} tables ["x", "$"] (some 2) 0 = some limited ∧
        unlimited.status = .success ∧ limited.status = .gaveUp ∧
        limited.Begins unlimited := by
  intro tables
  have hinput : ["x", "$"].getLast? = some tables.endMarker := by decide
  have htakes : Run.Takes tables { unread := ["x", "$"] } 3 := ⟨2, rfl, by decide, by decide⟩
  obtain ⟨run, hstart, h⟩ := limited_output hinput {}
  obtain ⟨-, rfl⟩ := Run.start_eq_ok_iff.1 hstart
  obtain ⟨unlimited, answer, hlimited, hunlimited, htells, -⟩ := (h 3).1 3 htakes (Nat.le_refl 3)
  have hanswer : parseWithin tables 3 ["x", "$"] =
      some (.ok ⟨[.shift "x" 2, .reduce 1 1, .accept], [0, 1], 1⟩) := by rfl
  obtain rfl := Option.some.inj ((hunlimited 3 (Nat.le_refl 3)).2.symm.trans hanswer)
  obtain ⟨limited, hgivesUp, -, hgivenUp⟩ :=
    (h 2).2.1 fun steps hsteps => hsteps.lt_of_running (by decide)
  refine ⟨hinput, htakes, unlimited, limited,
    fun allowance hle => (hunlimited allowance hle).1, hlimited 0, hgivenUp 0, htells.1,
    hgivesUp.status, ?_⟩
  exact (h 2).2.2 (some 3) (by simp) 0 limited unlimited (hgivenUp 0) (hlimited 0)

end ShiftReduce
