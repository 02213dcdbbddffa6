import ShiftReduce.Run.Progress

/-!
# What a step does

`Run.Step` lists what a step of an unfinished run can do, one constructor for
each way, with everything the step has looked up.  `Run.step_eq_iff` says that the
list is complete and that `Run.step` does what it says.  Proofs about runs go by
cases on `Run.Step` and leave `Run.step` closed.

`Run.after` is a run after a number of steps, and `Run.outcome` what the step
taken then comes to.  `Run.advance_eq_of_running` ties the two to `Run.advance`.
-/

namespace ShiftReduce

namespace Run

/-! ## The moves of a run -/

/-- The run with its stack replaced by a goto state on what a reduction left. -/
def replace (run : Run) (id : ProductionId) (left : List State) (next : State) : Run :=
  { run with
    stack := next :: left
    stack_ne_nil := List.cons_ne_nil _ _
    history := .reduce id next :: run.history }

def accept (run : Run) : Run :=
  { run with history := .accept :: run.history, finished := true }

section Fields

variable (run : Run) (symbol : Symbol) (rest : List Symbol) (id : ProductionId)
  (left : List State) (next : State)

@[simp] theorem shift_stack : (run.shift symbol rest next).stack = next :: run.stack := rfl
@[simp] theorem shift_unread : (run.shift symbol rest next).unread = rest := rfl
@[simp] theorem shift_position : (run.shift symbol rest next).position = run.position + 1 := rfl
@[simp] theorem shift_history :
    (run.shift symbol rest next).history = .shift symbol next :: run.history := rfl
@[simp] theorem shift_finished : (run.shift symbol rest next).finished = run.finished := rfl
@[simp] theorem shift_top : (run.shift symbol rest next).top = next := rfl
@[simp] theorem shift_events :
    (run.shift symbol rest next).events = run.events ++ [.shift symbol next] :=
  List.reverse_cons

@[simp] theorem replace_stack : (run.replace id left next).stack = next :: left := rfl
@[simp] theorem replace_unread : (run.replace id left next).unread = run.unread := rfl
@[simp] theorem replace_position : (run.replace id left next).position = run.position := rfl
@[simp] theorem replace_history :
    (run.replace id left next).history = .reduce id next :: run.history := rfl
@[simp] theorem replace_finished : (run.replace id left next).finished = run.finished := rfl
@[simp] theorem replace_top : (run.replace id left next).top = next := rfl
@[simp] theorem replace_events :
    (run.replace id left next).events = run.events ++ [.reduce id next] :=
  List.reverse_cons

@[simp] theorem accept_stack : run.accept.stack = run.stack := rfl
@[simp] theorem accept_unread : run.accept.unread = run.unread := rfl
@[simp] theorem accept_position : run.accept.position = run.position := rfl
@[simp] theorem accept_history : run.accept.history = .accept :: run.history := rfl
@[simp] theorem accept_finished : run.accept.finished = true := rfl
@[simp] theorem accept_events : run.accept.events = run.events ++ [.accept] := List.reverse_cons

end Fields

theorem stack_eq_cons (run : Run) : run.stack = run.top :: run.stack.tail :=
  (List.cons_head_tail run.stack_ne_nil).symm

theorem top_of_stack {run : Run} {state : State} {below : List State}
    (h : run.stack = state :: below) : run.top = state := by
  unfold top
  simp only [h, List.head_cons]

/-! ## One step -/

/-- What a step of an unfinished run does, what it comes to, and the run
afterwards. -/
inductive Step (tables : Tables) (run : Run) : Outcome → Run → Prop where
  | shift {symbol : Symbol} {rest : List Symbol} {next : State}
      (unread : run.unread = symbol :: rest)
      (action : tables.action? run.top symbol = some (.shift next)) :
      Step tables run .running (run.shift symbol rest next)
  | reduce {symbol : Symbol} {rest : List Symbol} {id : ProductionId} {production : Production}
      {exposed : State} {below : List State} {next : State}
      (unread : run.unread = symbol :: rest)
      (action : tables.action? run.top symbol = some (.reduce id))
      (defined : tables.production? id = some production)
      (popped : run.stack.drop production.size = exposed :: below)
      (goto : tables.goto? exposed production.lhs = some next) :
      Step tables run .running (run.replace id (exposed :: below) next)
  | accept {symbol : Symbol} {rest : List Symbol}
      (unread : run.unread = symbol :: rest)
      (action : tables.action? run.top symbol = some .accept) :
      Step tables run .accepted run.accept
  | pastEnd (unread : run.unread = []) :
      Step tables run (.failed (.shiftPastEnd run.top)) { run with finished := true }
  | unexpected {symbol : Symbol} {rest : List Symbol}
      (unread : run.unread = symbol :: rest)
      (action : tables.action? run.top symbol = some .error ∨
        tables.action? run.top symbol = none) :
      Step tables run (.failed (.unexpectedSymbol run.top symbol run.position))
        { run with finished := true }
  | defect {symbol : Symbol} {rest : List Symbol} {id : ProductionId} {error : ReductionError}
      (unread : run.unread = symbol :: rest)
      (action : tables.action? run.top symbol = some (.reduce id))
      (fault : (tables.reduce id run.stack).result = .error error) :
      Step tables run (.failed (.reduction error))
        { run with
          stack := (tables.reduce id run.stack).stack
          stack_ne_nil := tables.reduce_stack_ne_nil id run.stack_ne_nil
          finished := true }

/-- One of the things listed can always be done. -/
theorem exists_step (tables : Tables) (run : Run) :
    ∃ outcome next, run.Step tables outcome next := by
  cases hu : run.unread with
  | nil => exact ⟨_, _, .pastEnd hu⟩
  | cons symbol rest =>
      cases ha : tables.action? run.top symbol with
      | none => exact ⟨_, _, .unexpected hu (.inr ha)⟩
      | some action =>
          cases action with
          | shift next => exact ⟨_, _, .shift hu ha⟩
          | accept => exact ⟨_, _, .accept hu ha⟩
          | error => exact ⟨_, _, .unexpected hu (.inl ha)⟩
          | reduce id =>
              cases hr : (tables.reduce id run.stack).result with
              | error error => exact ⟨_, _, .defect hu ha hr⟩
              | ok next =>
                  obtain ⟨production, exposed, below, hp, hd, hg⟩ := Tables.reduce_eq_ok_iff.1 hr
                  exact ⟨_, _, .reduce hu ha hp hd hg⟩

theorem Step.step_eq {tables : Tables} {run next : Run} {outcome : Outcome}
    (h : run.finished = false) (hs : run.Step tables outcome next) :
    run.step tables = (outcome, next) := by
  cases hs with
  | shift hu ha => simp only [step, act, h, hu, ha, Bool.false_eq_true, if_false]
  | reduce hu ha hp hd hg =>
      simp only [step, act, Run.reduce, Tables.reduce, h, hu, ha, hp, hd, hg, Bool.false_eq_true,
        if_false, replace]
  | accept hu ha => simp only [step, act, h, hu, ha, Bool.false_eq_true, if_false, Run.accept]
  | pastEnd hu => simp only [step, act, h, hu, Bool.false_eq_true, if_false]
  | unexpected hu ha =>
      rcases ha with ha | ha <;> simp only [step, act, h, hu, ha, Bool.false_eq_true, if_false]
  | defect hu ha hr =>
      simp only [step, act, Run.reduce, h, hu, ha, hr, Bool.false_eq_true, if_false]

/-- The list of what a step can do is complete, and a step does only one thing. -/
theorem step_eq_iff {tables : Tables} {run next : Run} {outcome : Outcome}
    (h : run.finished = false) :
    run.step tables = (outcome, next) ↔ run.Step tables outcome next := by
  constructor
  · intro he
    obtain ⟨outcome', next', hs⟩ := exists_step tables run
    rw [hs.step_eq h, Prod.mk.injEq] at he
    obtain ⟨rfl, rfl⟩ := he
    exact hs
  · exact Step.step_eq h

theorem step_of_finished {tables : Tables} {run : Run} (h : run.finished = true) :
    run.step tables = (.failed .finished, run) := by
  simp only [step, h, if_true]

theorem not_finished_of_step_eq {tables : Tables} {run next : Run} {outcome : Outcome}
    (h : run.step tables = (outcome, next)) (hok : outcome = .running ∨ outcome = .accepted) :
    run.finished = false := by
  cases hf : run.finished with
  | false => rfl
  | true =>
      rw [step_of_finished hf, Prod.mk.injEq] at h
      rcases hok with hok | hok <;> rw [hok] at h <;> cases h.1

/-! ## Many steps -/

def after (tables : Tables) : Nat → Run → Run
  | 0, run => run
  | count + 1, run => ((after tables count run).step tables).2

/-- What the step comes to that is taken after a number of steps. -/
def outcome (tables : Tables) (count : Nat) (run : Run) : Outcome :=
  ((run.after tables count).step tables).1

@[simp] theorem after_zero (tables : Tables) (run : Run) : run.after tables 0 = run := rfl

theorem step_after (tables : Tables) (count : Nat) (run : Run) :
    (run.after tables count).step tables =
      (run.outcome tables count, run.after tables (count + 1)) := rfl

/-- A step does one of the things listed, or the run has finished and stays as it
is. -/
theorem step_after_cases (tables : Tables) (count : Nat) (run : Run) :
    ((run.after tables count).finished = false ∧
        (run.after tables count).Step tables (run.outcome tables count)
          (run.after tables (count + 1))) ∨
      ((run.after tables count).finished = true ∧
        run.outcome tables count = .failed .finished ∧
        run.after tables (count + 1) = run.after tables count) := by
  have he := step_after tables count run
  cases hf : (run.after tables count).finished with
  | false => exact .inl ⟨rfl, (step_eq_iff hf).1 he⟩
  | true =>
      rw [step_of_finished hf, Prod.mk.injEq] at he
      exact .inr ⟨rfl, he.1.symm, he.2.symm⟩

theorem after_add (tables : Tables) (m n : Nat) (run : Run) :
    run.after tables (m + n) = (run.after tables m).after tables n := by
  induction n with
  | zero => rfl
  | succ n ih => rw [Nat.add_succ, after, ih, after]

theorem outcome_add (tables : Tables) (m n : Nat) (run : Run) :
    run.outcome tables (m + n) = (run.after tables m).outcome tables n := by
  rw [outcome, after_add, outcome]

theorem step_of_outcome {tables : Tables} {run : Run} {count : Nat} {outcome : Outcome}
    (h : run.outcome tables count = outcome) (hok : outcome = .running ∨ outcome = .accepted) :
    (run.after tables count).Step tables outcome (run.after tables (count + 1)) := by
  have he := step_after tables count run
  rw [h] at he
  exact (step_eq_iff (not_finished_of_step_eq he hok)).1 he

theorem step_of_running {tables : Tables} {run : Run} {count : Nat}
    (h : run.outcome tables count = .running) :
    (run.after tables count).Step tables .running (run.after tables (count + 1)) :=
  step_of_outcome h (.inl rfl)

/-- A run is accepted because the tables say so for the next symbol. -/
theorem accept_of_outcome {tables : Tables} {run : Run} {count : Nat}
    (h : run.outcome tables count = .accepted) :
    ∃ symbol rest, (run.after tables count).unread = symbol :: rest ∧
      tables.action? (run.after tables count).top symbol = some .accept ∧
      run.after tables (count + 1) = (run.after tables count).accept := by
  have hs := step_of_outcome h (.inr rfl)
  generalize run.after tables (count + 1) = last at hs ⊢
  cases hs with
  | accept hu ha => exact ⟨_, _, hu, ha, rfl⟩

/-- What holds at first and is kept by every move holds as long as the run goes
on. -/
theorem after_induction {tables : Tables} {run : Run} {P : Run → Prop} (hstart : P run)
    (hstep : ∀ r next, P r → r.Step tables .running next → P next) :
    ∀ {count : Nat}, (∀ k < count, run.outcome tables k = .running) → P (run.after tables count)
  | 0, _ => hstart
  | count + 1, h => by
      have ih := after_induction hstart hstep fun k hk => h k (Nat.lt_succ_of_lt hk)
      exact hstep _ _ ih (step_of_running (h count (Nat.lt_succ_self count)))

/-- A step at which a run does not go on finishes it. -/
theorem finished_of_outcome_ne {tables : Tables} {run : Run} {count : Nat}
    (h : run.outcome tables count ≠ .running) : (run.after tables (count + 1)).finished = true := by
  rcases step_after_cases tables count run with ⟨-, hs⟩ | ⟨hf, -, hafter⟩
  · generalize run.outcome tables count = outcome at h hs
    generalize run.after tables (count + 1) = next at hs
    cases hs with
    | shift => exact absurd rfl h
    | reduce => exact absurd rfl h
    | accept => rfl
    | pastEnd => rfl
    | unexpected => rfl
    | defect => rfl
  · rw [hafter, hf]

/-- A run that has come to its end fails at the next step. -/
theorem outcome_succ_of_end {tables : Tables} {run : Run} {count : Nat}
    (h : run.outcome tables count ≠ .running) :
    run.outcome tables (count + 1) = .failed .finished := by
  rw [outcome, step_of_finished (finished_of_outcome_ne h)]

/-- After its end a run fails at every step, because it has finished. -/
theorem outcome_after_end {tables : Tables} {run : Run} {count : Nat}
    (h : ¬ ∀ k < count, run.outcome tables k = .running) :
    run.outcome tables count = .failed .finished := by
  induction count with
  | zero => exact absurd (fun k hk => absurd hk (Nat.not_lt_zero k)) h
  | succ count ih =>
      refine outcome_succ_of_end fun hr => ?_
      by_cases hbefore : ∀ k < count, run.outcome tables k = .running
      · refine h fun k hk => ?_
        rcases Nat.lt_succ_iff_lt_or_eq.1 hk with hk | rfl
        · exact hbefore k hk
        · exact hr
      · rw [ih hbefore] at hr
        cases hr

/-- If no step failed, every step but the last came out as `running`. -/
theorem running_of_not_failed {tables : Tables} {run : Run} {count : Nat}
    (h : ∀ k < count + 1, run.outcome tables k = .running ∨ run.outcome tables k = .accepted) :
    ∀ k < count, run.outcome tables k = .running := by
  intro k hk
  by_cases hr : run.outcome tables k = .running
  · exact hr
  · have hnext := outcome_succ_of_end hr
    rcases h (k + 1) (Nat.succ_lt_succ hk) with h | h <;> rw [h] at hnext <;> cases hnext

/-! ## Allowances -/

/-- While the run goes on, an allowance is spent in full. -/
theorem advance_eq_of_running {tables : Tables} {run : Run} {count : Nat}
    (h : ∀ k < count, run.outcome tables k = .running) :
    run.advance tables count = ⟨0, .running, run.after tables count⟩ := by
  induction count with
  | zero => rfl
  | succ count ih =>
      have hstep : (run.after tables count).step tables =
          (.running, run.after tables (count + 1)) := by
        rw [step_after, h count (Nat.lt_succ_self count)]
      rw [advance_add, ih fun k hk => h k (Nat.lt_succ_of_lt hk)]
      simp only [if_true, advance, hstep]

/-- The first step at which the run does not go on ends it. -/
theorem advance_eq_of_end {tables : Tables} {run : Run} {count : Nat} (spare : Nat)
    (h : ∀ k < count, run.outcome tables k = .running)
    (hend : run.outcome tables count ≠ .running) :
    run.advance tables (count + (spare + 1)) =
      ⟨spare, run.outcome tables count, run.after tables (count + 1)⟩ := by
  rw [advance_add, advance_eq_of_running h]
  simp only [if_true, advance, step_after]

/-- A run that does not go on for a number of steps has a first step at which it
ends. -/
theorem exists_end {tables : Tables} {run : Run} {count : Nat}
    (h : ¬ ∀ k < count, run.outcome tables k = .running) :
    ∃ last < count, (∀ k < last, run.outcome tables k = .running) ∧
      run.outcome tables last ≠ .running := by
  induction count with
  | zero => exact absurd (fun k hk => absurd hk (Nat.not_lt_zero k)) h
  | succ count ih =>
      by_cases hrun : ∀ k < count, run.outcome tables k = .running
      · refine ⟨count, Nat.lt_succ_self count, hrun, fun hc => h ?_⟩
        intro k hk
        rcases Nat.lt_succ_iff_lt_or_eq.1 hk with hk | rfl
        · exact hrun k hk
        · exact hc
      · obtain ⟨last, hlast, hbefore, hend⟩ := ih hrun
        exact ⟨last, Nat.lt_succ_of_lt hlast, hbefore, hend⟩

/-- What an allowance comes to is what the run comes to at its end, if it comes
to one. -/
theorem outcome_advance (tables : Tables) (run : Run) (allowance : Nat) :
    (run.advance tables allowance).outcome = .running ∨
      ∃ last < allowance, (∀ k < last, run.outcome tables k = .running) ∧
        (run.advance tables allowance).outcome = run.outcome tables last := by
  by_cases hrun : ∀ k < allowance, run.outcome tables k = .running
  · exact .inl (by rw [advance_eq_of_running hrun])
  · obtain ⟨last, hlt, hbefore, hend⟩ := exists_end hrun
    obtain ⟨spare, rfl⟩ := Nat.exists_eq_add_of_lt hlt
    refine .inr ⟨last, hlt, hbefore, ?_⟩
    rw [Nat.add_assoc, advance_eq_of_end spare hbefore hend]

/-- A run has an answer within an allowance exactly if it comes to its end at one
of the steps allowed, and the answer is what it came to there. -/
theorem answerWithin_eq_some_iff {tables : Tables} {run : Run} {allowance : Nat}
    {answer : Except ParseError Trace} :
    run.answerWithin tables allowance = some answer ↔
      ∃ last < allowance, (∀ k < last, run.outcome tables k = .running) ∧
        ((run.outcome tables last = .accepted ∧
            answer = .ok (run.after tables (last + 1)).trace) ∨
          ∃ error, run.outcome tables last = .failed error ∧ answer = .error error) := by
  have hends : ∀ last < allowance, (∀ k < last, run.outcome tables k = .running) →
      run.outcome tables last ≠ .running → run.advance tables allowance =
        ⟨allowance - (last + 1), run.outcome tables last, run.after tables (last + 1)⟩ := by
    intro last hlt hbefore hend
    rw [← advance_eq_of_end _ hbefore hend]
    congr 1
    omega
  constructor
  · intro h
    by_cases hrun : ∀ k < allowance, run.outcome tables k = .running
    · simp [answerWithin, advance_eq_of_running hrun] at h
    · obtain ⟨last, hlt, hbefore, hend⟩ := exists_end hrun
      refine ⟨last, hlt, hbefore, ?_⟩
      rw [answerWithin, hends last hlt hbefore hend] at h
      cases ho : run.outcome tables last with
      | running => exact absurd ho hend
      | accepted =>
          simp only [ho, Option.some.injEq] at h
          exact .inl ⟨rfl, h.symm⟩
      | failed error =>
          simp only [ho, Option.some.injEq] at h
          exact .inr ⟨error, rfl, h.symm⟩
  · rintro ⟨last, hlt, hbefore, ⟨ho, rfl⟩ | ⟨error, ho, rfl⟩⟩
    · rw [answerWithin, hends last hlt hbefore (by simp [ho]), ho]
    · rw [answerWithin, hends last hlt hbefore (by simp [ho]), ho]

end Run

/-! ## Parsing -/

/-- A run can start exactly on an input that ends with the end-marker. -/
theorem Run.start_eq_ok_iff {tables : Tables} {input : List Symbol} {run : Run} :
    Run.start tables input = .ok run ↔
      input.getLast? = some tables.endMarker ∧ run = { unread := input } := by
  unfold Run.start
  split
  · next h => simp [h, eq_comm]
  · next h => simp [h]

/-- An input is parsed with success exactly if it can be started on and its run
comes to acceptance within the allowance. -/
theorem parseWithin_eq_ok_iff {tables : Tables} {allowance : Nat} {input : List Symbol}
    {trace : Trace} :
    parseWithin tables allowance input = some (.ok trace) ↔
      ∃ run, Run.start tables input = .ok run ∧
        ∃ last < allowance, (∀ k < last, run.outcome tables k = .running) ∧
          run.outcome tables last = .accepted ∧
          trace = (run.after tables (last + 1)).trace := by
  unfold parseWithin
  cases hs : Run.start tables input with
  | error error => simp
  | ok run => simp [Run.answerWithin_eq_some_iff]

end ShiftReduce
