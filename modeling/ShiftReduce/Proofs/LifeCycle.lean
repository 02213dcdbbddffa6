import ShiftReduce.Proofs.Forest

/-!
# The life cycle of a run

A run may be asked for a step at any time, also after its end.  `Run.Consistent`
lists what holds of it at all times.  Every step keeps it, whether the step fails
or not (`Consistent.step`), since a failed step changes little.  It adds no event
and reads nothing, and it leaves the stack alone unless a reduction has been cut
short (`Run.LeftBy`).

After its end a run is frozen.  `Run.LifeCycle` puts this together for a run after
any number of steps and for the step that comes next.
-/

namespace ShiftReduce

def Event.isShift : Event → Bool
  | .shift .. => true
  | .reduce .. | .accept => false

/-- Whether a step came out without a failure. -/
def Outcome.succeeded : Outcome → Bool
  | .running | .accepted => true
  | .failed _ => false

/-! ## Failures -/

/-- A reduction that fails leaves the stack as it was, unless there is no goto.
Then the right-hand side has been taken off, and something was below it. -/
theorem Tables.reduce_eq_error {tables : Tables} {id : ProductionId} {stack : List State}
    {error : ReductionError} (h : (tables.reduce id stack).result = .error error) :
    ((∀ exposed nonTerminal, error ≠ .missingGoto exposed nonTerminal) ∧
        (tables.reduce id stack).stack = stack) ∨
      ∃ production exposed, tables.production? id = some production ∧
        production.size < stack.length ∧ error = .missingGoto exposed production.lhs ∧
        (tables.reduce id stack).stack = stack.drop production.size := by
  unfold Tables.reduce at h ⊢
  cases hp : tables.production? id with
  | none =>
      simp only [hp, Except.error.injEq] at h
      subst h
      exact .inl ⟨nofun, by simp only⟩
  | some production =>
      cases hd : stack.drop production.size with
      | nil =>
          simp only [hp, hd, Except.error.injEq] at h
          subst h
          exact .inl ⟨nofun, by simp only [hd]⟩
      | cons exposed below =>
          cases hg : tables.goto? exposed production.lhs with
          | some next => simp [hp, hd, hg] at h
          | none =>
              simp only [hp, hd, hg, Except.error.injEq] at h ⊢
              refine .inr ⟨production, exposed, rfl, ?_, h.symm, hd.symm⟩
              refine Nat.lt_of_not_le fun hle => ?_
              rw [List.drop_eq_nil_of_le hle] at hd
              cases hd

namespace Run

variable {tables : Tables} {input : List Symbol} {run next : Run} {outcome : Outcome}
  {error : ParseError}

/-- What a failed step leaves of a run. -/
structure LeftBy (tables : Tables) (error : ParseError) (run next : Run) : Prop where
  events : next.events = run.events
  position : next.position = run.position
  stack : (∀ exposed nonTerminal, error ≠ .reduction (.missingGoto exposed nonTerminal)) →
    next.stack = run.stack
  /-- The right-hand side is taken off before the goto is looked up.  It is never
  as long as the stack. -/
  cut : ∀ exposed nonTerminal, error = .reduction (.missingGoto exposed nonTerminal) →
    ∃ symbol rest id production, run.unread = symbol :: rest ∧
      tables.action? run.top symbol = some (.reduce id) ∧
      tables.production? id = some production ∧ production.size < run.stack.length ∧
      next.stack = run.stack.drop production.size

/-- A step that fails without touching the stack. -/
theorem LeftBy.of_stack_eq
    (h : ∀ exposed nonTerminal, error ≠ .reduction (.missingGoto exposed nonTerminal))
    (hevents : next.events = run.events) (hposition : next.position = run.position)
    (hstack : next.stack = run.stack) : LeftBy tables error run next where
  events := hevents
  position := hposition
  stack := fun _ => hstack
  cut := fun exposed nonTerminal he => absurd he (h exposed nonTerminal)

theorem Step.leftBy (hs : run.Step tables (.failed error) next) :
    LeftBy tables error run next := by
  cases hs with
  | pastEnd hu => exact .of_stack_eq nofun rfl rfl rfl
  | unexpected hu ha => exact .of_stack_eq nofun rfl rfl rfl
  | @defect symbol rest id error hu ha hfault =>
      rcases Tables.reduce_eq_error hfault with
        ⟨hne, hstack⟩ | ⟨production, exposed, hp, hlt, rfl, hstack⟩
      · refine .of_stack_eq (fun exposed nonTerminal he => ?_) rfl rfl hstack
        exact hne exposed nonTerminal (ParseError.reduction.inj he)
      · constructor
        · rfl
        · rfl
        · intro hne
          exact absurd rfl (hne exposed production.lhs)
        · intro _ _ _
          exact ⟨symbol, rest, id, production, hu, ha, hp, hlt, hstack⟩

theorem leftBy_of_outcome {count : Nat} (h : run.outcome tables count = .failed error) :
    LeftBy tables error (run.after tables count) (run.after tables (count + 1)) := by
  rcases step_after_cases tables count run with ⟨-, hs⟩ | ⟨-, he, hafter⟩
  · rw [h] at hs
    exact hs.leftBy
  · rw [h] at he
    obtain rfl := Outcome.failed.inj he
    rw [hafter]
    exact .of_stack_eq nofun rfl rfl rfl

/-! ## The invariant -/

/-- What holds of a run on the input at all times. -/
structure Consistent (input : List Symbol) (run : Run) : Prop where
  bottom : run.stack.getLast? = some startState
  position_le : run.position ≤ input.length
  unread : run.unread = input.drop run.position
  shifts : run.position = run.events.countP Event.isShift
  accept_last : .accept ∉ run.events.dropLast
  accept_finished : run.finished = false → .accept ∉ run.events

namespace Consistent

theorem start (input : List Symbol) : Consistent input { unread := input } where
  bottom := rfl
  position_le := Nat.zero_le _
  unread := rfl
  shifts := rfl
  accept_last := nofun
  accept_finished := fun _ => nofun

/-- What is not read yet stands at the position of the run. -/
theorem getElem?_position (h : Consistent input run) :
    input[run.position]? = run.unread.head? := by
  rw [h.unread, List.head?_drop]

/-- A suffix of the stack that is not empty has the same bottom. -/
theorem bottom_of_suffix (h : Consistent input run) {stack : List State}
    (hsuffix : stack <:+ run.stack) (hne : stack ≠ []) : stack.getLast? = some startState := by
  obtain ⟨popped, hpopped⟩ := hsuffix
  have hbottom := h.bottom
  rw [← hpopped, List.getLast?_append, List.getLast?_eq_some_getLast hne, Option.some_or] at hbottom
  rw [List.getLast?_eq_some_getLast hne, hbottom]

theorem step (h : Consistent input run) (hf : run.finished = false)
    (hs : run.Step tables outcome next) : Consistent input next := by
  have haccept := h.accept_finished hf
  cases hs with
  | @shift symbol rest state hu ha =>
      have hdrop : input.drop run.position = symbol :: rest := by rw [← h.unread, hu]
      have hlt : run.position < input.length := by
        refine Nat.lt_of_not_le fun hle => ?_
        rw [List.drop_eq_nil_of_le hle] at hdrop
        cases hdrop
      constructor
      · rw [shift_stack, List.getLast?_cons_of_ne_nil run.stack_ne_nil]
        exact h.bottom
      · exact hlt
      · rw [shift_unread, shift_position, ← List.drop_drop, hdrop, List.drop_one, List.tail_cons]
      · simp [h.shifts, Event.isShift]
      · simpa using haccept
      · intro _
        simpa using haccept
  | @reduce symbol rest id production exposed below state hu ha hp hd hg =>
      constructor
      · have hsuffix := hd ▸ List.drop_suffix production.size run.stack
        rw [replace_stack, List.getLast?_cons_of_ne_nil (List.cons_ne_nil _ _)]
        exact h.bottom_of_suffix hsuffix (List.cons_ne_nil _ _)
      · exact h.position_le
      · exact h.unread
      · simp [h.shifts, Event.isShift]
      · simpa using haccept
      · intro _
        simpa using haccept
  | accept hu ha =>
      constructor
      · exact h.bottom
      · exact h.position_le
      · exact h.unread
      · simp [h.shifts, Event.isShift]
      · simpa using haccept
      · simp
  | pastEnd hu => exact ⟨h.bottom, h.position_le, h.unread, h.shifts, h.accept_last, nofun⟩
  | unexpected hu ha => exact ⟨h.bottom, h.position_le, h.unread, h.shifts, h.accept_last, nofun⟩
  | @defect symbol rest id error hu ha hfault =>
      have hbottom := h.bottom_of_suffix (tables.reduce_stack_suffix id run.stack)
        (tables.reduce_stack_ne_nil id run.stack_ne_nil)
      exact ⟨hbottom, h.position_le, h.unread, h.shifts, h.accept_last, nofun⟩

/-- Every step keeps a run consistent, also one that it fails or that comes after
the end. -/
theorem after (h : Consistent input run) (tables : Tables) (count : Nat) :
    Consistent input (run.after tables count) := by
  induction count with
  | zero => exact h
  | succ count ih =>
      rcases step_after_cases tables count run with ⟨hf, hs⟩ | ⟨-, -, hafter⟩
      · exact ih.step hf hs
      · rw [hafter]
        exact ih

end Consistent

/-! ## Steps that are counted -/

theorem Step.length_history (hs : run.Step tables outcome next) :
    next.history.length = run.history.length + if outcome.succeeded then 1 else 0 := by
  cases hs with
  | shift | reduce | accept | pastEnd | unexpected | defect => rfl

/-- There is an event for every step that did not fail. -/
theorem length_events_after (h : run.events = []) (count : Nat) :
    (run.after tables count).events.length =
      (List.range count).countP fun k => (run.outcome tables k).succeeded := by
  induction count with
  | zero => simp [h]
  | succ count ih =>
      rw [List.range_succ, List.countP_append, List.countP_singleton, ← ih]
      simp only [events, List.length_reverse]
      rcases step_after_cases tables count run with ⟨-, hs⟩ | ⟨-, he, hafter⟩
      · exact hs.length_history
      · rw [he, hafter]
        rfl

/-! ## The end -/

/-- A finished run does not change. -/
theorem after_of_finished (h : run.finished = true) (count : Nat) :
    run.after tables count = run := by
  induction count with
  | zero => rfl
  | succ count ih => rw [Run.after, ih, step_of_finished h]

theorem Step.finished_eq (hs : run.Step tables .running next) : next.finished = run.finished := by
  cases hs with
  | shift | reduce => rfl

/-- A run is finished exactly if some step did not come out as `running`. -/
theorem finished_after_iff (hf : run.finished = false) (count : Nat) :
    (run.after tables count).finished = true ↔ ∃ k < count, run.outcome tables k ≠ .running := by
  constructor
  · intro h
    by_cases hrun : ∀ k < count, run.outcome tables k = .running
    · have hgoing := after_induction (P := fun run => run.finished = false) hf
        (fun _ _ h hs => hs.finished_eq.trans h) hrun
      rw [h] at hgoing
      cases hgoing
    · obtain ⟨last, hlast, -, hend⟩ := exists_end hrun
      exact ⟨last, hlast, hend⟩
  · rintro ⟨k, hk, hend⟩
    obtain ⟨later, rfl⟩ := Nat.exists_eq_add_of_le hk
    have hfinished := finished_of_outcome_ne hend
    rw [after_add, after_of_finished hfinished, hfinished]

theorem not_finished_after_iff (hf : run.finished = false) (count : Nat) :
    (run.after tables count).finished = false ↔ ∀ k < count, run.outcome tables k = .running := by
  rw [← Bool.not_eq_true, finished_after_iff hf]
  simp

/-! ## All together -/

/-- The life of a run on an input, as it stands after a number of steps. -/
structure LifeCycle (tables : Tables) (input : List Symbol) (run : Run) (count : Nat) :
    Prop where
  bottom : (run.after tables count).stack.getLast? = some startState
  position_le : (run.after tables count).position ≤ input.length
  shifts : (run.after tables count).position =
    (run.after tables count).events.countP Event.isShift
  successes : (run.after tables count).events.length =
    (List.range count).countP fun k => (run.outcome tables k).succeeded
  accept_last : .accept ∉ (run.after tables count).events.dropLast
  /-- What a failure of the next step changes. -/
  failure : ∀ error, run.outcome tables count = .failed error →
    LeftBy tables error (run.after tables count) (run.after tables (count + 1))
  finished_iff : (run.after tables count).finished = true ↔
    ∃ k < count, run.outcome tables k ≠ .running
  frozen : (run.after tables count).finished = true → ∀ later, count ≤ later →
    run.outcome tables later = .failed .finished ∧
      run.after tables later = run.after tables count

end Run

/-- Every run has the life cycle, whatever its tables are and however often it is
asked for a step. -/
theorem lifeCycle {tables : Tables} {input : List Symbol}
    (hinput : input.getLast? = some tables.endMarker) :
    ∃ run, Run.start tables input = .ok run ∧ ∀ count, run.LifeCycle tables input count := by
  refine ⟨{ unread := input }, Run.start_eq_ok_iff.2 ⟨hinput, rfl⟩, fun count => ?_⟩
  have hconsistent := (Run.Consistent.start input).after tables count
  exact {
    bottom := hconsistent.bottom
    position_le := hconsistent.position_le
    shifts := hconsistent.shifts
    successes := Run.length_events_after rfl count
    accept_last := hconsistent.accept_last
    failure := fun error => Run.leftBy_of_outcome
    finished_iff := Run.finished_after_iff rfl count
    frozen := by
      intro hfinished later hle
      obtain ⟨more, rfl⟩ := Nat.exists_eq_add_of_le hle
      rw [Run.outcome_add, Run.after_add, Run.outcome, Run.after_of_finished hfinished,
        Run.step_of_finished hfinished]
      exact ⟨rfl, rfl⟩ }

/-- The life of a run that has no goto to go on with, and is cut to its bottom. -/
theorem lifeCycle_missingGoto :
    let tables := Tables.ofDeclarations
      [.production 1 ⟨"S", .symbols ["x"]⟩, .action 0 "x" (.shift 1), .action 1 "$" (.reduce 1)]
    let run : Run := { unread := ["x", "$"] }
    ["x", "$"].getLast? = some tables.endMarker ∧
      run.outcome tables 1 = .failed (.reduction (.missingGoto 0 "S")) ∧
      (run.after tables 1).stack = [1, 0] ∧ (run.after tables 2).stack = [0] ∧
      ∀ count, run.LifeCycle tables ["x", "$"] count := by
  intro tables run
  have hinput : ["x", "$"].getLast? = some tables.endMarker := by decide
  obtain ⟨started, hstart, h⟩ := lifeCycle hinput
  obtain ⟨-, rfl⟩ := Run.start_eq_ok_iff.1 hstart
  exact ⟨hinput, rfl, rfl, rfl, h⟩

end ShiftReduce
