import ShiftReduce.Proofs.Steps

/-!
# What a reduction does

`Tables.Reduces` lists what a reduction of a stack can come to, one constructor for each
way, with everything it has looked up and with what is left of the stack.
`Tables.reduce_eq_iff` says that the list is complete and that `Tables.reduce` does what
it says.

A step that reduces does one of these things (`Run.Step.of_reduces_ok`,
`Run.Step.of_reduces_error`).
-/

namespace ShiftReduce

namespace Tables

/-- What reducing a stack by a production comes to, and what is left of the stack. -/
inductive Reduces (tables : Tables) (id : ProductionId) (stack : List State) :
    Except ReductionError State → List State → Prop where
  | unknown (undefined : tables.production? id = none) :
      Reduces tables id stack (.error (.unknownProduction id)) stack
  | underflow {production : Production} (defined : tables.production? id = some production)
      (short : stack.drop production.size = []) :
      Reduces tables id stack (.error (.underflow id production.size stack.length)) stack
  | missingGoto {production : Production} {exposed : State} {below : List State}
      (defined : tables.production? id = some production)
      (popped : stack.drop production.size = exposed :: below)
      (missing : tables.goto? exposed production.lhs = none) :
      Reduces tables id stack (.error (.missingGoto exposed production.lhs)) (exposed :: below)
  | done {production : Production} {exposed : State} {below : List State} {next : State}
      (defined : tables.production? id = some production)
      (popped : stack.drop production.size = exposed :: below)
      (goto : tables.goto? exposed production.lhs = some next) :
      Reduces tables id stack (.ok next) (exposed :: below)

variable {tables : Tables} {id : ProductionId} {stack left : List State}
  {result : Except ReductionError State}

theorem Reduces.reduce_eq (h : tables.Reduces id stack result left) :
    tables.reduce id stack = ⟨result, left⟩ := by
  cases h with
  | unknown hp => simp only [reduce, hp]
  | underflow hp hd => simp only [reduce, hp, hd]
  | missingGoto hp hd hg => simp only [reduce, hp, hd, hg]
  | done hp hd hg => simp only [reduce, hp, hd, hg]

/-- One of the things listed can always be done. -/
theorem exists_reduces (tables : Tables) (id : ProductionId) (stack : List State) :
    ∃ result left, tables.Reduces id stack result left := by
  cases hp : tables.production? id with
  | none => exact ⟨_, _, .unknown hp⟩
  | some production =>
      cases hd : stack.drop production.size with
      | nil => exact ⟨_, _, .underflow hp hd⟩
      | cons exposed below =>
          cases hg : tables.goto? exposed production.lhs with
          | none => exact ⟨_, _, .missingGoto hp hd hg⟩
          | some next => exact ⟨_, _, .done hp hd hg⟩

/-- The list of what a reduction can come to is complete, and a reduction comes to only
one thing. -/
theorem reduce_eq_iff :
    tables.reduce id stack = ⟨result, left⟩ ↔ tables.Reduces id stack result left := by
  constructor
  · intro he
    obtain ⟨result', left', h⟩ := exists_reduces tables id stack
    rw [h.reduce_eq, Reduction.mk.injEq] at he
    obtain ⟨rfl, rfl⟩ := he
    exact h
  · exact Reduces.reduce_eq

theorem reduces_of_result (h : (tables.reduce id stack).result = result) :
    tables.Reduces id stack result (tables.reduce id stack).stack :=
  reduce_eq_iff.1 (h ▸ rfl)

end Tables

namespace Run

variable {tables : Tables} {run : Run} {symbol : Symbol} {rest : List Symbol}
  {id : ProductionId} {left : List State}

theorem Step.of_reduces_ok {next : State} (hu : run.unread = symbol :: rest)
    (ha : tables.action? run.top symbol = some (.reduce id))
    (hr : tables.Reduces id run.stack (.ok next) left) :
    run.Step tables .running (run.replace id left next) := by
  cases hr with
  | done hp hd hg => exact .reduce hu ha hp hd hg

theorem Step.of_reduces_error {error : ReductionError} (hu : run.unread = symbol :: rest)
    (ha : tables.action? run.top symbol = some (.reduce id))
    (hr : tables.Reduces id run.stack (.error error) left) (hne : left ≠ []) :
    run.Step tables (.failed (.reduction error))
      { run with stack := left, stack_ne_nil := hne, finished := true } := by
  have hs := Step.defect hu ha (congrArg Reduction.result hr.reduce_eq)
  simp only [hr.reduce_eq] at hs
  exact hs

end Run

end ShiftReduce
