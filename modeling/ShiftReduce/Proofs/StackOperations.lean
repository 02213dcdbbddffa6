import ShiftReduce.Proofs.Reduction
import ShiftReduce.Tables.Declaration

/-!
# Operations on one stack

A stack can also be worked on without a run.  States are pushed, right-hand sides are
taken off, and operations that fail come in between.

A stack that is kept in one piece has its bottom first, and a reduction cuts it at its
end.  `Tables.CutsTo` says what is left then, by depths.  `Tables.reduceInPlace` cuts
the piece itself.  It takes differences of sizes and looks at places, and each of these
can go wrong.  None of them does, because the depth is compared first
(`Tables.CutsTo.reduceInPlace_eq`).

So no operation takes the bottom off (`StackOperation.getLast?_apply`), whatever has
failed before it, and a reduction with the push that belongs to it changes the depth by
what the production says (`StackOperation.length_replace`).
-/

namespace ShiftReduce

/-! ## Reducing a stack that has its bottom first -/

namespace Tables

/-- What reducing a stack comes to, and what is left of the stack.  Both stacks have
their bottom first. -/
inductive CutsTo (tables : Tables) (id : ProductionId) (stack : List State) :
    Except ReductionError State → List State → Prop where
  | unknown (undefined : tables.production? id = none) :
      CutsTo tables id stack (.error (.unknownProduction id)) stack
  | underflow {production : Production} (defined : tables.production? id = some production)
      (short : stack.length ≤ production.size) :
      CutsTo tables id stack (.error (.underflow id production.size stack.length)) stack
  | missingGoto {production : Production} {exposed : State} {left : List State}
      (defined : tables.production? id = some production)
      (deep : production.size < stack.length)
      (cut : left = stack.take (stack.length - production.size))
      (top : left.getLast? = some exposed)
      (missing : tables.goto? exposed production.lhs = none) :
      CutsTo tables id stack (.error (.missingGoto exposed production.lhs)) left
  | done {production : Production} {exposed next : State} {left : List State}
      (defined : tables.production? id = some production)
      (deep : production.size < stack.length)
      (cut : left = stack.take (stack.length - production.size))
      (top : left.getLast? = some exposed)
      (goto : tables.goto? exposed production.lhs = some next) :
      CutsTo tables id stack (.ok next) left

end Tables

/-- The difference of two sizes.  To take away more than there is is a fault. -/
def difference? (size taken : Nat) : Option Nat :=
  if taken ≤ size then some (size - taken) else none

theorem difference?_eq_some {size taken : Nat} (h : taken ≤ size) :
    difference? size taken = some (size - taken) := if_pos h

/-- Reduces a stack that has its bottom first.  A difference below zero and a place that
is not in the stack are faults, and then nothing comes of it. -/
def Tables.reduceInPlace (tables : Tables) (id : ProductionId) (stack : List State) :
    Option Reduction :=
  match tables.production? id with
  | none => some ⟨.error (.unknownProduction id), stack⟩
  | some production =>
    if stack.length ≤ production.size then
      some ⟨.error (.underflow id production.size stack.length), stack⟩
    else do
      let kept ← difference? stack.length production.size
      let left := stack.take kept
      let last ← difference? left.length 1
      let exposed ← left[last]?
      match tables.goto? exposed production.lhs with
      | some next => return ⟨.ok next, left⟩
      | none => return ⟨.error (.missingGoto exposed production.lhs), left⟩

namespace Tables

variable {tables : Tables} {id : ProductionId} {stack left : List State}
  {result : Except ReductionError State}

/-- A stack that is deeper than the right-hand side is long has something left. -/
theorem exists_getLast?_take {size : Nat} (deep : size < stack.length) :
    ∃ exposed, (stack.take (stack.length - size)).getLast? = some exposed := by
  have hne : stack.take (stack.length - size) ≠ [] := by
    rw [← List.length_pos_iff, List.length_take]
    omega
  exact ⟨_, List.getLast?_eq_some_getLast hne⟩

/-- One of the things listed can always be done. -/
theorem exists_cutsTo (tables : Tables) (id : ProductionId) (stack : List State) :
    ∃ result left, tables.CutsTo id stack result left := by
  cases hp : tables.production? id with
  | none => exact ⟨_, _, .unknown hp⟩
  | some production =>
      rcases Nat.lt_or_ge production.size stack.length with deep | short
      · obtain ⟨exposed, htop⟩ := exists_getLast?_take deep
        cases hg : tables.goto? exposed production.lhs with
        | none => exact ⟨_, _, .missingGoto hp deep rfl htop hg⟩
        | some next => exact ⟨_, _, .done hp deep rfl htop hg⟩
      · exact ⟨_, _, .underflow hp short⟩

/-- With its top first the same stack is cut by dropping states. -/
theorem drop_reverse_eq_cons {size : Nat} {exposed : State} {front : List State}
    (cut : front ++ [exposed] = stack.take (stack.length - size)) :
    stack.reverse.drop size = exposed :: front.reverse := by
  rw [List.drop_reverse, ← cut, List.reverse_append, List.reverse_singleton,
    List.singleton_append]

theorem CutsTo.reduces (h : tables.CutsTo id stack result left) :
    tables.Reduces id stack.reverse result left.reverse := by
  cases h with
  | unknown hp => exact .unknown hp
  | underflow hp short =>
      have hd := List.drop_eq_nil_of_le (Nat.le_trans (Nat.le_of_eq List.length_reverse) short)
      have hreduces := Reduces.underflow hp hd
      rwa [List.length_reverse] at hreduces
  | missingGoto hp deep cut htop hg =>
      obtain ⟨front, rfl⟩ := List.getLast?_eq_some_iff.1 htop
      rw [List.reverse_append, List.reverse_singleton, List.singleton_append]
      exact .missingGoto hp (drop_reverse_eq_cons cut) hg
  | done hp deep cut htop hg =>
      obtain ⟨front, rfl⟩ := List.getLast?_eq_some_iff.1 htop
      rw [List.reverse_append, List.reverse_singleton, List.singleton_append]
      exact .done hp (drop_reverse_eq_cons cut) hg

/-- The last place of what is left is there. -/
theorem getElem?_difference {exposed : State} (top : left.getLast? = some exposed) :
    difference? left.length 1 = some (left.length - 1) ∧ left[left.length - 1]? = some exposed := by
  have hne : left ≠ [] := by
    rintro rfl
    cases top
  exact ⟨difference?_eq_some (List.length_pos_iff.2 hne), List.getLast?_eq_getElem? ▸ top⟩

/-- A reduction of a stack that is deep enough cuts it, and then the goto is looked up. -/
theorem reduceInPlace_of_deep {production : Production} {exposed : State}
    (hp : tables.production? id = some production) (deep : production.size < stack.length)
    (cut : left = stack.take (stack.length - production.size))
    (top : left.getLast? = some exposed) :
    tables.reduceInPlace id stack =
      match tables.goto? exposed production.lhs with
      | some next => some ⟨.ok next, left⟩
      | none => some ⟨.error (.missingGoto exposed production.lhs), left⟩ := by
  have hkept := difference?_eq_some (Nat.le_of_lt deep)
  obtain ⟨hlast, hplace⟩ := getElem?_difference top
  simp only [reduceInPlace, hp, Nat.not_le_of_lt deep, if_false, hkept, ← cut, Option.bind_eq_bind,
    Option.bind_some, hlast, hplace]
  rfl

/-- Nothing goes wrong in a reduction in place. -/
theorem CutsTo.reduceInPlace_eq (h : tables.CutsTo id stack result left) :
    tables.reduceInPlace id stack = some ⟨result, left⟩ := by
  cases h with
  | unknown hp => simp only [reduceInPlace, hp]
  | underflow hp short => simp only [reduceInPlace, hp, short, if_true]
  | missingGoto hp deep cut htop hg => simp only [reduceInPlace_of_deep hp deep cut htop, hg]
  | done hp deep cut htop hg => simp only [reduceInPlace_of_deep hp deep cut htop, hg]

end Tables

/-! ## Operations -/

/-- What can be done to a stack. -/
inductive StackOperation where
  | push (state : State)
  | reduce (id : ProductionId)
  /-- Reduces, and pushes the state that this leads to. -/
  | replace (id : ProductionId)
deriving DecidableEq, Repr

namespace StackOperation

/-- What an operation on a stack comes to, and the stack afterwards.  Stacks have their
top first. -/
def apply (tables : Tables) (stack : List State) : StackOperation → Reduction
  | .push state => ⟨.ok state, state :: stack⟩
  | .reduce id => tables.reduce id stack
  | .replace id =>
    let reduction := tables.reduce id stack
    match reduction.result with
    | .ok next => ⟨.ok next, next :: reduction.stack⟩
    | .error error => ⟨.error error, reduction.stack⟩

/-- The stack after operations in order, whether they fail or not. -/
def applyAll (tables : Tables) (operations : List StackOperation) (stack : List State) :
    List State :=
  operations.foldl (fun stack operation => (operation.apply tables stack).stack) stack

variable {tables : Tables} {stack : List State}

/-- What a reduction leaves of a stack has the same bottom. -/
theorem getLast?_reduce (tables : Tables) (id : ProductionId) (h : stack ≠ []) :
    (tables.reduce id stack).stack.getLast? = stack.getLast? := by
  have hne := tables.reduce_stack_ne_nil id h
  have hsuffix := tables.reduce_stack_suffix id stack
  rw [List.getLast?_eq_some_getLast hne, List.getLast?_eq_some_getLast h, hsuffix.getLast hne]

/-- No operation changes the bottom. -/
theorem getLast?_apply (tables : Tables) (operation : StackOperation) (h : stack ≠ []) :
    (operation.apply tables stack).stack.getLast? = stack.getLast? := by
  cases operation with
  | push state => exact List.getLast?_cons_of_ne_nil h
  | reduce id => exact getLast?_reduce tables id h
  | replace id =>
      have hreduce := getLast?_reduce tables id h
      have hne := tables.reduce_stack_ne_nil id h
      cases hr : (tables.reduce id stack).result with
      | error error => simpa only [apply, hr] using hreduce
      | ok next => simpa only [apply, hr, List.getLast?_cons_of_ne_nil hne] using hreduce

theorem ne_nil_of_getLast?_eq {left : List State} (he : left.getLast? = stack.getLast?)
    (h : stack ≠ []) : left ≠ [] := by
  rintro rfl
  exact h (List.getLast?_eq_none_iff.1 he.symm)

theorem getLast?_applyAll (tables : Tables) (operations : List StackOperation) (h : stack ≠ []) :
    (applyAll tables operations stack).getLast? = stack.getLast? := by
  induction operations generalizing stack with
  | nil => rfl
  | cons operation rest ih =>
      have hstep := getLast?_apply tables operation h
      exact (ih (ne_nil_of_getLast?_eq hstep h)).trans hstep

/-- A reduction that leads to a state and the push of this state change the depth by one
less the size of the production. -/
theorem length_replace {id : ProductionId} {next : State}
    (h : ((replace id).apply tables stack).result = .ok next) :
    ∃ production, tables.production? id = some production ∧
      (((replace id).apply tables stack).stack.length : Int) - stack.length =
        1 - production.size := by
  cases hr : (tables.reduce id stack).result with
  | error error =>
      simp only [apply, hr] at h
      cases h
  | ok pushed =>
      obtain ⟨production, exposed, below, hp, hd, hg⟩ := Tables.reduce_eq_ok_iff.1 hr
      have hreduce := (Tables.Reduces.done hp hd hg).reduce_eq
      have hlength := congrArg List.length hd
      rw [List.length_drop, List.length_cons] at hlength
      refine ⟨production, hp, ?_⟩
      simp only [apply, hreduce, List.length_cons]
      omega

end StackOperation

/-- What a reduction comes to is told by the depth of the stack and by two look-ups.
Nothing goes wrong in it when it is done in place.  So operations on a stack leave its
bottom where it is, whether they fail or not, and after any of them a reduction that
leads to a state changes the depth by one less the size of its production. -/
theorem reduction_specified (tables : Tables) :
    (∀ id stack, (∃ result left, tables.CutsTo id stack result left) ∧
      ∀ result left, tables.CutsTo id stack result left →
        tables.reduce id stack.reverse = ⟨result, left.reverse⟩ ∧
          tables.reduceInPlace id stack = some ⟨result, left⟩) ∧
    ∀ operations stack, stack ≠ [] →
      StackOperation.applyAll tables operations stack ≠ [] ∧
        (StackOperation.applyAll tables operations stack).getLast? = stack.getLast? ∧
        ∀ id next after,
          (StackOperation.replace id).apply tables
              (StackOperation.applyAll tables operations stack) = ⟨.ok next, after⟩ →
            ∃ production, tables.production? id = some production ∧
              (after.length : Int) - (StackOperation.applyAll tables operations stack).length =
                1 - production.size := by
  constructor
  · intro id stack
    refine ⟨Tables.exists_cutsTo tables id stack, fun result left h => ?_⟩
    exact ⟨h.reduces.reduce_eq, h.reduceInPlace_eq⟩
  · intro operations stack h
    have hbottom := StackOperation.getLast?_applyAll tables operations h
    refine ⟨StackOperation.ne_nil_of_getLast?_eq hbottom h, hbottom, fun id next after he => ?_⟩
    obtain ⟨production, hp, hlength⟩ := StackOperation.length_replace (congrArg Reduction.result he)
    rw [he] at hlength
    exact ⟨production, hp, hlength⟩

/-- Operations that fail, one of them half-way, and then one that leads to a state. -/
theorem reduction_specified_afterFailures :
    let tables := Tables.ofDeclarations
      [.production 1 ⟨"S", .symbols ["x"]⟩, .production 2 ⟨"S", .length (UInt64.size - 1)⟩,
        .goto 0 "S" 2]
    let operations : List StackOperation := [.push 1, .reduce 9, .reduce 2, .push 5, .replace 1]
    tables.CutsTo 1 [0, 1, 5] (.error (.missingGoto 1 "S")) [0, 1] ∧
      tables.reduceInPlace 1 [0, 1, 5] = some ⟨.error (.missingGoto 1 "S"), [0, 1]⟩ ∧
      [0] ≠ ([] : List State) ∧ StackOperation.applyAll tables operations [0] = [1, 0] ∧
      (StackOperation.replace 1).apply tables [1, 0] = ⟨.ok 2, [2, 0]⟩ ∧
      ∃ production, tables.production? 1 = some production ∧
        ([2, 0].length : Int) - [1, 0].length = 1 - production.size := by
  intro tables operations
  have hp : tables.production? 1 = some ⟨"S", .symbols ["x"]⟩ := rfl
  have hcuts : tables.CutsTo 1 [0, 1, 5] (.error (.missingGoto 1 "S")) [0, 1] :=
    .missingGoto hp (by decide) rfl rfl rfl
  have hne : [0] ≠ ([] : List State) := by decide
  have hstack : StackOperation.applyAll tables operations [0] = [1, 0] := rfl
  have hreplace : (StackOperation.replace 1).apply tables [1, 0] = ⟨.ok 2, [2, 0]⟩ := rfl
  obtain ⟨hreduction, hoperations⟩ := reduction_specified tables
  obtain ⟨-, -, hdepth⟩ := hoperations operations [0] hne
  rw [hstack] at hdepth
  exact ⟨hcuts, ((hreduction 1 [0, 1, 5]).2 _ _ hcuts).2, hne, hstack, hreplace,
    hdepth 1 2 [2, 0] hreplace⟩

end ShiftReduce
