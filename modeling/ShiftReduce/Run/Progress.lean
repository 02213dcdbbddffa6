import ShiftReduce.Run.Basic

/-!
# Many steps

A run may go on forever, since a reduction by an empty right-hand side reads
nothing and shortens no stack.  So steps are taken under an *allowance*, a
number of steps that may not be exceeded.  A run that comes to its end within
an allowance has an answer, and a larger allowance gives the same one.  To run
without a limit is to ask for an allowance that is large enough.

`advance_add` says that an allowance may be spent in two parts, and
`answerWithin_mono` that a larger allowance keeps an answer.
-/

namespace ShiftReduce

/-- How far a run came under an allowance. -/
structure Progress where
  /-- The steps that were not taken. -/
  left : Nat
  /-- The outcome of the last step, or `running` if there was none. -/
  outcome : Outcome
  run : Run

namespace Run

/-- Takes steps until the allowance is spent or a step does not come out as
`running`. -/
def advance (tables : Tables) : Nat → Run → Progress
  | 0, run => ⟨0, .running, run⟩
  | allowance + 1, run =>
    match run.step tables with
    | (.running, next) => advance tables allowance next
    | (outcome, last) => ⟨allowance, outcome, last⟩

/-- The stacks after each step that `advance` takes, top first. -/
def visitedStacks (tables : Tables) : Nat → Run → List (List State)
  | 0, _ => []
  | allowance + 1, run =>
    match run.step tables with
    | (.running, next) => next.stack :: visitedStacks tables allowance next
    | (_, last) => [last.stack]

/-- What the run comes to, if it comes to its end within the allowance. -/
def answerWithin (tables : Tables) (allowance : Nat) (run : Run) :
    Option (Except ParseError Trace) :=
  let progress := run.advance tables allowance
  match progress.outcome with
  | .running => none
  | .accepted => some (.ok progress.run.trace)
  | .failed error => some (.error error)

/-- An allowance may be spent in two parts, the second only if the run still
goes on after the first. -/
theorem advance_add (tables : Tables) (m n : Nat) (run : Run) :
    run.advance tables (m + n) =
      let progress := run.advance tables m
      if progress.outcome = .running then progress.run.advance tables n
      else { progress with left := progress.left + n } := by
  induction m generalizing run with
  | zero => simp [advance]
  | succ m ih =>
    rw [Nat.succ_add, advance, advance]
    split
    · exact ih _
    · next outcome last hne _ => simp [show outcome ≠ Outcome.running from hne]

end Run

/-- What parsing an input comes to, if it comes to its end within the allowance. -/
def parseWithin (tables : Tables) (allowance : Nat) (input : List Symbol) :
    Option (Except ParseError Trace) :=
  match Run.start tables input with
  | .ok run => run.answerWithin tables allowance
  | .error error => some (.error error)

/-- A larger allowance keeps the answer of a run. -/
theorem Run.answerWithin_mono {tables : Tables} {m n : Nat} {run : Run}
    {answer : Except ParseError Trace} (hle : m ≤ n)
    (h : run.answerWithin tables m = some answer) : run.answerWithin tables n = some answer := by
  obtain ⟨k, rfl⟩ := Nat.exists_eq_add_of_le hle
  unfold answerWithin at h ⊢
  rw [advance_add]
  cases ho : (run.advance tables m).outcome <;> simp_all

end ShiftReduce
