import ShiftReduce.Run.Error

/-!
# Reductions

A reduction by a production takes as many states off the stack as the
right-hand side has symbols.  The state that this *exposes* decides, by its goto
for the left-hand side, which state comes next.  Pushing that state is left to
the caller.

The bottom state is never taken off.  The stack is cut before the goto is
looked up, so it stays cut when there is no goto.  The other two failures leave
the stack as it was.

A stack is a list with its top first.
-/

namespace ShiftReduce

/-- What a reduction came to. -/
structure Reduction where
  result : Except ReductionError State
  stack : List State

/-- Reduces a stack by a production. -/
def Tables.reduce (tables : Tables) (id : ProductionId) (stack : List State) : Reduction :=
  match tables.production? id with
  | none => ⟨.error (.unknownProduction id), stack⟩
  | some production =>
    match stack.drop production.size with
    | [] => ⟨.error (.underflow id production.size stack.length), stack⟩
    | exposed :: below =>
      match tables.goto? exposed production.lhs with
      | none => ⟨.error (.missingGoto exposed production.lhs), exposed :: below⟩
      | some next => ⟨.ok next, exposed :: below⟩

/-- A reduction does not empty a stack. -/
theorem Tables.reduce_stack_ne_nil (tables : Tables) (id : ProductionId) {stack : List State}
    (h : stack ≠ []) : (tables.reduce id stack).stack ≠ [] := by
  unfold Tables.reduce
  split
  · exact h
  · split
    · exact h
    · split <;> simp

/-- What is left of a stack is its lower part. -/
theorem Tables.reduce_stack_suffix (tables : Tables) (id : ProductionId) (stack : List State) :
    (tables.reduce id stack).stack <:+ stack := by
  unfold Tables.reduce
  split
  · exact List.suffix_rfl
  · next production _ =>
    split
    · exact List.suffix_rfl
    · next exposed below hd => split <;> exact hd ▸ List.drop_suffix production.size stack

/-- A reduction leads to a state exactly if its production is defined, the stack
is deeper than the right-hand side is long, and the exposed state has a goto. -/
theorem Tables.reduce_eq_ok_iff {tables : Tables} {id : ProductionId} {stack : List State}
    {next : State} :
    (tables.reduce id stack).result = .ok next ↔
      ∃ production exposed below, tables.production? id = some production ∧
        stack.drop production.size = exposed :: below ∧
        tables.goto? exposed production.lhs = some next := by
  unfold Tables.reduce
  constructor
  · intro h
    split at h
    · simp at h
    · next production hp =>
      split at h
      · simp at h
      · next exposed below hd =>
        split at h
        · simp at h
        · next hg => exact ⟨production, exposed, below, hp, hd, by simp_all⟩
  · rintro ⟨production, exposed, below, hp, hd, hg⟩
    simp [hp, hd, hg]

end ShiftReduce
