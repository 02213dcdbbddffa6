import ShiftReduce.Proofs.Divergence
import ShiftReduce.Proofs.Limit

/-!
# Runs that are stopped and resumed

What a run *comes to* is its answer under an allowance that is large enough
(`Run.ComesTo`).  There is no more than one, and an endless run has none.

A run may be taken step by step for a while and then be left to itself.  As long as it
goes on it does not matter where it was stopped: from there it comes to what parsing
the input comes to, and what it has done is the beginning of all that it does
(`Run.Stopped`).  The step that ends the run says what the parse comes to, and a run
that is resumed after that has nothing left to do and fails (`Run.Ended`).
-/

namespace ShiftReduce

namespace Run

variable {tables : Tables} {run : Run} {answer other : Except ParseError Trace} {count : Nat}

/-! ## What a run comes to -/

/-- What the run comes to when nothing limits it. -/
def ComesTo (tables : Tables) (run : Run) (answer : Except ParseError Trace) : Prop :=
  ∃ allowance, run.answerWithin tables allowance = some answer

theorem ComesTo.unique (h : run.ComesTo tables answer) (hother : run.ComesTo tables other) :
    answer = other := by
  obtain ⟨m, hm⟩ := h
  obtain ⟨n, hn⟩ := hother
  have hm' := answerWithin_mono (Nat.le_max_left m n) hm
  have hn' := answerWithin_mono (Nat.le_max_right m n) hn
  exact Option.some.inj (hm'.symm.trans hn')

theorem ComesTo.iff_eq (h : run.ComesTo tables answer) :
    run.ComesTo tables other ↔ other = answer := by
  constructor
  · intro hother
    exact hother.unique h
  · rintro rfl
    exact h

theorem comesTo_of_accepted (hbefore : ∀ k < count, run.outcome tables k = .running)
    (h : run.outcome tables count = .accepted) :
    run.ComesTo tables (.ok (run.after tables (count + 1)).trace) :=
  ⟨count + 1, answerWithin_eq_some_iff.2
    ⟨count, Nat.lt_succ_self count, hbefore, .inl ⟨h, rfl⟩⟩⟩

theorem comesTo_of_failed {error : ParseError}
    (hbefore : ∀ k < count, run.outcome tables k = .running)
    (h : run.outcome tables count = .failed error) : run.ComesTo tables (.error error) :=
  ⟨count + 1, answerWithin_eq_some_iff.2
    ⟨count, Nat.lt_succ_self count, hbefore, .inr ⟨error, h, rfl⟩⟩⟩

/-- A run that is accepted has done everything by then. -/
theorem ComesTo.exists_takes {trace : Trace} (h : run.ComesTo tables (.ok trace)) :
    ∃ steps, run.Takes tables steps ∧ trace = (run.after tables steps).trace := by
  obtain ⟨allowance, h⟩ := h
  obtain ⟨last, -, hbefore, ⟨haccepted, htrace⟩ | ⟨error, -, herror⟩⟩ :=
    answerWithin_eq_some_iff.1 h
  · have hend : run.outcome tables last ≠ .running := by simp [haccepted]
    exact ⟨last + 1, ⟨last, rfl, hbefore, hend⟩, Except.ok.inj htrace⟩
  · cases herror

/-! ## Stopping while the run goes on -/

/-- The steps that were taken before a run was stopped count for its allowance. -/
theorem answerWithin_after (h : ∀ k < count, run.outcome tables k = .running)
    (allowance : Nat) :
    (run.after tables count).answerWithin tables allowance =
      run.answerWithin tables (count + allowance) := by
  rw [answerWithin, answerWithin, advance_add, advance_eq_of_running h]
  simp only [if_true]

theorem comesTo_after_iff (h : ∀ k < count, run.outcome tables k = .running) :
    (run.after tables count).ComesTo tables answer ↔ run.ComesTo tables answer := by
  constructor
  · rintro ⟨allowance, hanswer⟩
    rw [answerWithin_after h] at hanswer
    exact ⟨count + allowance, hanswer⟩
  · rintro ⟨allowance, hanswer⟩
    refine ⟨allowance, ?_⟩
    rw [answerWithin_after h]
    exact answerWithin_mono (Nat.le_add_left allowance count) hanswer

theorem endless_after_iff (h : ∀ k < count, run.outcome tables k = .running) :
    (run.after tables count).Endless tables ↔ run.Endless tables := by
  constructor
  · intro hlater k
    rcases Nat.lt_or_ge k count with hk | hk
    · exact h k hk
    · obtain ⟨more, rfl⟩ := Nat.exists_eq_add_of_le hk
      rw [outcome_add]
      exact hlater more
  · intro hendless k
    rw [← outcome_add]
    exact hendless (count + k)

/-- A run that has finished comes to nothing but this failure. -/
theorem comesTo_of_finished (h : run.finished = true) :
    run.ComesTo tables (.error .finished) := by
  have hfailed : run.outcome tables 0 = .failed .finished := by
    rw [outcome, after_zero, step_of_finished h]
  exact comesTo_of_failed (fun k hk => absurd hk (Nat.not_lt_zero k)) hfailed

end Run

/-! ## Parsing -/

/-- What parsing the input comes to when nothing limits it. -/
def ParsesTo (tables : Tables) (input : List Symbol) (answer : Except ParseError Trace) : Prop :=
  ∃ allowance, parseWithin tables allowance input = some answer

section Parsing

variable {tables : Tables} {input : List Symbol} {run : Run}

theorem parseWithin_eq_answerWithin (hstart : Run.start tables input = .ok run)
    (allowance : Nat) : parseWithin tables allowance input = run.answerWithin tables allowance := by
  simp only [parseWithin, hstart]

theorem parsesTo_iff (hstart : Run.start tables input = .ok run)
    {answer : Except ParseError Trace} :
    ParsesTo tables input answer ↔ run.ComesTo tables answer := by
  simp only [ParsesTo, Run.ComesTo, parseWithin_eq_answerWithin hstart]

namespace Run

/-- A run on the input that was stopped while it goes on. -/
structure Stopped (tables : Tables) (input : List Symbol) (run : Run) : Prop where
  comesTo_iff : ∀ answer, run.ComesTo tables answer ↔ ParsesTo tables input answer
  endless_iff : run.Endless tables ↔ ∀ allowance, parseWithin tables allowance input = none
  events_prefix : ∀ trace, ParsesTo tables input (.ok trace) → run.trace.events <+: trace.events

/-- A run on the input whose last step had the outcome and ended it. -/
structure Ended (tables : Tables) (input : List Symbol) (outcome : Outcome) (run : Run) :
    Prop where
  accepted : outcome = .accepted → ∀ answer, ParsesTo tables input answer ↔ answer = .ok run.trace
  failed : ∀ error, outcome = .failed error →
    ∀ answer, ParsesTo tables input answer ↔ answer = .error error
  finished : ∀ answer, run.ComesTo tables answer ↔ answer = .error .finished

variable {count : Nat}

theorem stopped_after (hstart : Run.start tables input = .ok run)
    (h : ∀ k < count, run.outcome tables k = .running) :
    Stopped tables input (run.after tables count) where
  comesTo_iff answer := by rw [comesTo_after_iff h, parsesTo_iff hstart]
  endless_iff := by
    rw [endless_after_iff h, endless_iff_answerWithin]
    simp only [parseWithin_eq_answerWithin hstart]
  events_prefix trace hparses := by
    obtain ⟨steps, htakes, rfl⟩ := ((parsesTo_iff hstart).1 hparses).exists_takes
    exact htakes.events_prefix_end count

theorem ended_after (hstart : Run.start tables input = .ok run)
    (h : ∀ k < count, run.outcome tables k = .running)
    (hend : run.outcome tables count ≠ .running) :
    Ended tables input (run.outcome tables count) (run.after tables (count + 1)) where
  accepted haccepted answer := by
    rw [parsesTo_iff hstart, (comesTo_of_accepted h haccepted).iff_eq]
  failed error hfailed answer := by
    rw [parsesTo_iff hstart, (comesTo_of_failed h hfailed).iff_eq]
  finished answer := (comesTo_of_finished (finished_of_outcome_ne hend)).iff_eq

end Run

/-- A run can be stopped anywhere.  While it goes on it can be resumed as if it had
never been stopped.  The step that ends it says what the parse comes to, and then there
is nothing left to resume. -/
theorem stopped_or_ended (hinput : input.getLast? = some tables.endMarker) :
    ∃ run, Run.start tables input = .ok run ∧
      ∀ count, (∀ k < count, run.outcome tables k = .running) →
        Run.Stopped tables input (run.after tables count) ∧
          (run.outcome tables count ≠ .running →
            Run.Ended tables input (run.outcome tables count) (run.after tables (count + 1))) := by
  have hstart : Run.start tables input = .ok { unread := input } :=
    Run.start_eq_ok_iff.2 ⟨hinput, rfl⟩
  refine ⟨{ unread := input }, hstart, fun count h => ⟨?_, fun hend => ?_⟩⟩
  · exact Run.stopped_after hstart h
  · exact Run.ended_after hstart h hend

end Parsing

/-- The run on `x` is stopped after its shift, is resumed and accepts.  Resumed after
its end, it fails. -/
theorem stopped_or_ended_single :
    let tables := Tables.ofDeclarations
      [.production 1 ⟨"E", .symbols ["x"]⟩, .action 0 "x" (.shift 2), .action 2 "$" (.reduce 1),
        .action 1 "$" .accept, .goto 0 "E" 1]
    let run : Run := { unread := ["x", "$"] }
    let trace : Trace := ⟨[.shift "x" 2, .reduce 1 1, .accept], [0, 1], 1⟩
    ["x", "$"].getLast? = some tables.endMarker ∧
      (∀ k < 2, run.outcome tables k = .running) ∧ run.outcome tables 2 = .accepted ∧
      (run.after tables 1).ComesTo tables (.ok trace) ∧
      (run.after tables 1).trace.events <+: trace.events ∧
      (run.after tables 3).trace = trace ∧
      (run.after tables 3).ComesTo tables (.error .finished) := by
  intro tables run trace
  have hinput : ["x", "$"].getLast? = some tables.endMarker := by decide
  have hrun : ∀ k < 2, run.outcome tables k = .running := by decide
  have haccepted : run.outcome tables 2 = .accepted := by decide
  have htrace : (run.after tables 3).trace = trace := by rfl
  obtain ⟨started, hstart, h⟩ := stopped_or_ended hinput
  obtain ⟨-, rfl⟩ := Run.start_eq_ok_iff.1 hstart
  have hstopped := (h 1 fun k hk => hrun k (Nat.lt_trans hk (by decide))).1
  have hended := (h 2 hrun).2 (by rw [haccepted]; nofun)
  have hparses : ParsesTo tables ["x", "$"] (.ok trace) :=
    (hended.accepted haccepted _).2 (congrArg Except.ok htrace.symm)
  exact ⟨hinput, hrun, haccepted, (hstopped.comesTo_iff _).2 hparses,
    hstopped.events_prefix trace hparses, htrace, (hended.finished _).2 rfl⟩

end ShiftReduce
