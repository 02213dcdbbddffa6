import ShiftReduce.Proofs.Resuming

/-!
# Runs of bounded length

A run without reductions by an empty right-hand side can only go on for long by
reductions that take off one state and push another.  Such a *unit step* depends on the
terminal that comes next and on the state that is exposed, and it changes neither.  So
unit steps that follow one another in a run form a chain for one terminal and one
exposed state.  If there is a bound on these chains the run ends, and the number of its
steps is bounded too (`ends_within`).

The count is by a potential, twice the number of unread symbols and the depth of the
stack.  Every step that goes on and is not a unit step lowers the potential, and a unit
step keeps it (`Run.Step.potential_lt_or_unitStep`).  Between two steps of the first
kind there are no more unit steps than the bound allows.
-/

namespace ShiftReduce

/-! ## Unit steps -/

namespace Tables

/-- In front of the terminal, a reduction by a right-hand side of one symbol replaces
the state on the exposed one by the next. -/
def UnitStep (tables : Tables) (terminal : Symbol) (exposed state next : State) : Prop :=
  ∃ id production, tables.action? state terminal = some (.reduce id) ∧
    tables.production? id = some production ∧ production.size = 1 ∧
    tables.goto? exposed production.lhs = some next

/-- Unit steps that follow one another from the state are no more than the bound. -/
def UnitStepsWithin (tables : Tables) (terminal : Symbol) (exposed state : State)
    (bound : Nat) : Prop :=
  ∀ later : List State, (state :: later).IsChain (tables.UnitStep terminal exposed) →
    later.length ≤ bound

/-- No reduction is by an empty right-hand side, and there is a bound on how many unit
steps can follow one another. -/
structure UnitBound (tables : Tables) (bound : Nat) : Prop where
  size_pos : ∀ {state : State} {terminal : Symbol} {id : ProductionId} {production : Production},
    tables.action? state terminal = some (.reduce id) →
      tables.production? id = some production → 1 ≤ production.size
  unitSteps : ∀ terminal exposed state, tables.UnitStepsWithin terminal exposed state bound

variable {tables : Tables} {terminal : Symbol} {exposed state next : State} {bound : Nat}

/-- After a unit step there are fewer left. -/
theorem UnitStepsWithin.succ (h : tables.UnitStepsWithin terminal exposed state bound)
    (hs : tables.UnitStep terminal exposed state next) :
    ∃ fewer, bound = fewer + 1 ∧ tables.UnitStepsWithin terminal exposed next fewer := by
  have hchain {later : List State}
      (hlater : (next :: later).IsChain (tables.UnitStep terminal exposed)) :
      later.length + 1 ≤ bound :=
    h (next :: later) (.cons_cons hs hlater)
  obtain ⟨fewer, rfl⟩ := Nat.exists_eq_add_of_le' (hchain (.singleton next))
  exact ⟨fewer, rfl, fun later hlater => Nat.le_of_succ_le_succ (hchain hlater)⟩

/-- A rank that unit steps lower bounds their number. -/
theorem unitStepsWithin_of_rank (rank : State → Nat)
    (h : ∀ state next, tables.UnitStep terminal exposed state next → rank next < rank state)
    (state : State) : tables.UnitStepsWithin terminal exposed state (rank state) := by
  intro later hchain
  induction later generalizing state with
  | nil => exact Nat.zero_le _
  | cons next later ih =>
      cases hchain with
      | cons_cons hs hrest => exact Nat.lt_of_le_of_lt (ih next hrest) (h state next hs)

end Tables

/-! ## The potential of a run -/

namespace Run

variable {tables : Tables} {run next : Run} {bound : Nat}

/-- A symbol counts twice, since its shift makes the stack deeper by one. -/
def potential (run : Run) : Nat := 2 * run.unread.length + run.stack.tail.length

/-- The unit steps that the run can take at once are no more than the bound. -/
def UnitStepsLeft (tables : Tables) (run : Run) (bound : Nat) : Prop :=
  ∀ terminal exposed, run.unread.head? = some terminal → run.stack.tail.head? = some exposed →
    tables.UnitStepsWithin terminal exposed run.top bound

/-- The run and the next differ by a unit step. -/
structure TakesUnitStep (tables : Tables) (run next : Run) : Prop where
  unread : next.unread = run.unread
  below : next.stack.tail = run.stack.tail
  unitStep : ∃ terminal exposed, run.unread.head? = some terminal ∧
    run.stack.tail.head? = some exposed ∧ tables.UnitStep terminal exposed run.top next.top

theorem TakesUnitStep.potential_eq (h : TakesUnitStep tables run next) :
    next.potential = run.potential := by
  rw [potential, potential, h.unread, h.below]

theorem TakesUnitStep.unitStepsLeft (h : TakesUnitStep tables run next)
    (hleft : run.UnitStepsLeft tables bound) :
    ∃ fewer, bound = fewer + 1 ∧ next.UnitStepsLeft tables fewer := by
  obtain ⟨terminal, exposed, hterminal, hexposed, hs⟩ := h.unitStep
  obtain ⟨fewer, rfl, hfewer⟩ := (hleft terminal exposed hterminal hexposed).succ hs
  refine ⟨fewer, rfl, fun terminal' exposed' hterminal' hexposed' => ?_⟩
  rw [h.unread, hterminal] at hterminal'
  rw [h.below, hexposed] at hexposed'
  obtain rfl := Option.some.inj hterminal'
  obtain rfl := Option.some.inj hexposed'
  exact hfewer

/-- A step lowers the potential, or it is a unit step. -/
theorem Step.potential_lt_or_unitStep (h : tables.UnitBound bound)
    (hs : run.Step tables .running next) :
    next.potential < run.potential ∨ TakesUnitStep tables run next := by
  have hdepth : run.stack.length = run.stack.tail.length + 1 := by
    rw [run.stack_eq_cons, List.length_cons, List.tail_cons]
  cases hs with
  | shift hu ha =>
      refine .inl ?_
      simp only [potential, shift_unread, shift_stack, List.tail_cons, hu, List.length_cons]
      omega
  | @reduce symbol rest id production exposed below state hu ha hp hd hg =>
      have hpos := h.size_pos ha hp
      have hlength := congrArg List.length hd
      rw [List.length_drop, List.length_cons] at hlength
      by_cases hunit : production.size = 1
      · rw [hunit, List.drop_one] at hd
        refine .inr ⟨rfl, hd.symm, symbol, exposed, ?_, ?_, id, production, ha, hp, hunit, hg⟩
        · rw [hu, List.head?_cons]
        · rw [hd, List.head?_cons]
      · refine .inl ?_
        simp only [potential, replace_unread, replace_stack, List.tail_cons, List.length_cons]
        omega

/-! ## Counting steps -/

theorem Step.takes_one {result : Outcome} (hf : run.finished = false)
    (hs : run.Step tables result next) (hend : result ≠ .running) : run.Takes tables 1 := by
  refine ⟨0, rfl, fun k hk => absurd hk (Nat.not_lt_zero k), ?_⟩
  rw [outcome, after_zero, hs.step_eq hf]
  exact hend

theorem Step.takes_succ {steps : Nat} (hf : run.finished = false)
    (hs : run.Step tables .running next) (h : next.Takes tables steps) :
    run.Takes tables (steps + 1) := by
  obtain ⟨last, rfl, hbefore, hend⟩ := h
  have hnext : run.after tables 1 = next := congrArg Prod.snd (hs.step_eq hf)
  have hlater (k : Nat) : run.outcome tables (k + 1) = next.outcome tables k := by
    rw [Nat.add_comm, outcome_add, hnext]
  refine ⟨last + 1, rfl, fun k hk => ?_, hlater last ▸ hend⟩
  cases k with
  | zero => exact congrArg Prod.fst (hs.step_eq hf)
  | succ k => rw [hlater, hbefore k (Nat.lt_of_succ_lt_succ hk)]

theorem Takes.exists_answer {steps : Nat} (h : run.Takes tables steps) :
    ∃ answer, run.answerWithin tables steps = some answer := by
  obtain ⟨last, rfl, hbefore, hend⟩ := h
  cases ho : run.outcome tables last with
  | running => exact absurd ho hend
  | accepted =>
      exact ⟨_, answerWithin_eq_some_iff.2
        ⟨last, Nat.lt_succ_self last, hbefore, .inl ⟨ho, rfl⟩⟩⟩
  | failed error =>
      exact ⟨_, answerWithin_eq_some_iff.2
        ⟨last, Nat.lt_succ_self last, hbefore, .inr ⟨error, ho, rfl⟩⟩⟩

/-- Each unit of potential pays for one step and for the unit steps before it.  The last
step is paid for apart, with the unit steps that can still come. -/
theorem exists_takes_of_potential (h : tables.UnitBound bound) (run : Run) (amount left : Nat)
    (hf : run.finished = false) (hamount : run.potential ≤ amount) (hle : left ≤ bound)
    (hleft : run.UnitStepsLeft tables left) :
    ∃ steps ≤ amount * (bound + 1) + left + 1, run.Takes tables steps := by
  obtain ⟨outcome, next, hs⟩ := exists_step tables run
  by_cases hrunning : outcome = .running
  · subst hrunning
    have hfnext : next.finished = false := hs.finished_eq.trans hf
    rcases hs.potential_lt_or_unitStep h with hlt | hunit
    · -- what was left of the unit steps is lost, and the full bound is available again
      obtain ⟨less, rfl⟩ := Nat.exists_eq_add_of_lt (Nat.lt_of_lt_of_le hlt hamount)
      obtain ⟨steps, hsteps, htakes⟩ := exists_takes_of_potential h next (next.potential + less)
        bound hfnext (Nat.le_add_right _ _) (Nat.le_refl bound)
        fun terminal exposed _ _ => h.unitSteps terminal exposed next.top
      refine ⟨steps + 1, ?_, hs.takes_succ hf htakes⟩
      rw [Nat.succ_mul]
      omega
    · obtain ⟨fewer, rfl, hfewer⟩ := hunit.unitStepsLeft hleft
      obtain ⟨steps, hsteps, htakes⟩ := exists_takes_of_potential h next amount fewer hfnext
        (hunit.potential_eq ▸ hamount) (Nat.le_of_succ_le hle) hfewer
      exact ⟨steps + 1, Nat.succ_le_succ hsteps, hs.takes_succ hf htakes⟩
  · exact ⟨1, Nat.le_add_left 1 _, hs.takes_one hf hrunning⟩
termination_by (amount, left)

end Run

/-- On tables with a bound on unit steps every run ends, and it takes at most as many
steps as the bound and the length of the input allow. -/
theorem ends_within {tables : Tables} {bound : Nat} (h : tables.UnitBound bound)
    {input : List Symbol} (hinput : input.getLast? = some tables.endMarker) :
    ∃ run, Run.start tables input = .ok run ∧
      ∃ steps ≤ (2 * input.length + 1) * (bound + 1), run.Takes tables steps ∧
        ∃ answer, parseWithin tables steps input = some answer := by
  have hstart : Run.start tables input = .ok { unread := input } :=
    Run.start_eq_ok_iff.2 ⟨hinput, rfl⟩
  obtain ⟨steps, hsteps, htakes⟩ := Run.exists_takes_of_potential h { unread := input }
    (2 * input.length) bound rfl (Nat.le_refl _) (Nat.le_refl bound)
    fun terminal exposed _ _ => h.unitSteps terminal exposed _
  obtain ⟨answer, hanswer⟩ := htakes.exists_answer
  refine ⟨{ unread := input }, hstart, steps, ?_, htakes, answer, ?_⟩
  · rw [Nat.succ_mul]
    omega
  · rw [parseWithin_eq_answerWithin hstart, hanswer]

/-! ## An example -/

section ListOfTerms

/-- The tables of the grammar `S -> S T`, `S -> T`, `T -> x`. -/
def listOfTerms : Tables :=
  .ofDeclarations
    [.production 1 ⟨"S", .symbols ["S", "T"]⟩, .production 2 ⟨"S", .symbols ["T"]⟩,
      .production 3 ⟨"T", .symbols ["x"]⟩,
      .action 0 "x" (.shift 4), .action 1 "x" (.shift 4), .action 1 "$" .accept,
      .action 2 "x" (.reduce 2), .action 2 "$" (.reduce 2), .action 3 "x" (.reduce 1),
      .action 3 "$" (.reduce 1), .action 4 "x" (.reduce 3), .action 4 "$" (.reduce 3),
      .goto 0 "S" 1, .goto 0 "T" 2, .goto 1 "T" 3]

theorem listOfTerms_reduce {state : State} {terminal : Symbol} {id : ProductionId}
    (h : listOfTerms.action? state terminal = some (.reduce id)) :
    state = 2 ∧ id = 2 ∨ state = 3 ∧ id = 1 ∨ state = 4 ∧ id = 3 := by
  have hm : ((state, terminal), Action.reduce id) ∈
      [((0, "x"), .shift 4), ((1, "x"), .shift 4), ((1, "$"), .accept), ((2, "x"), .reduce 2),
        ((2, "$"), .reduce 2), ((3, "x"), .reduce 1), ((3, "$"), .reduce 1),
        ((4, "x"), .reduce 3), ((4, "$"), .reduce 3)] :=
    OrderedMap.get?_eq_some_iff.1 h
  simp only [List.mem_cons, Prod.mk.injEq, reduceCtorEq, and_false, Action.reduce.injEq,
    List.not_mem_nil, or_false, false_or] at hm
  rcases hm with ⟨⟨rfl, -⟩, rfl⟩ | ⟨⟨rfl, -⟩, rfl⟩ | ⟨⟨rfl, -⟩, rfl⟩ | ⟨⟨rfl, -⟩, rfl⟩ |
    ⟨⟨rfl, -⟩, rfl⟩ | ⟨⟨rfl, -⟩, rfl⟩
  all_goals decide

/-- A symbol becomes a term, and the first term becomes a list. -/
def listOfTermsRank (state : State) : Nat :=
  if state = 4 then 2 else if state = 2 then 1 else 0

theorem listOfTermsRank_le (state : State) : listOfTermsRank state ≤ 2 := by
  unfold listOfTermsRank
  split
  · exact Nat.le_refl 2
  · split <;> decide

theorem listOfTermsRank_lt {terminal : Symbol} {exposed state next : State}
    (h : listOfTerms.UnitStep terminal exposed state next) :
    listOfTermsRank next < listOfTermsRank state := by
  obtain ⟨id, production, ha, hp, hsize, hg⟩ := h
  have hm : ((exposed, production.lhs), next) ∈ [((0, "S"), 1), ((0, "T"), 2), ((1, "T"), 3)] :=
    OrderedMap.get?_eq_some_iff.1 hg
  rcases listOfTerms_reduce ha with ⟨rfl, rfl⟩ | ⟨rfl, rfl⟩ | ⟨rfl, rfl⟩
  · obtain rfl : (⟨"S", .symbols ["T"]⟩ : Production) = production := Option.some.inj hp
    obtain ⟨-, rfl⟩ : exposed = 0 ∧ next = 1 := by simpa using hm
    decide
  · obtain rfl : (⟨"S", .symbols ["S", "T"]⟩ : Production) = production := Option.some.inj hp
    exact absurd hsize (by decide)
  · obtain rfl : (⟨"T", .symbols ["x"]⟩ : Production) = production := Option.some.inj hp
    obtain ⟨-, rfl⟩ | ⟨-, rfl⟩ : exposed = 0 ∧ next = 2 ∨ exposed = 1 ∧ next = 3 := by
      simpa using hm
    · decide
    · decide

theorem listOfTerms_unitBound : listOfTerms.UnitBound 2 where
  size_pos := by
    intro state terminal id production ha hp
    rcases listOfTerms_reduce ha with ⟨-, rfl⟩ | ⟨-, rfl⟩ | ⟨-, rfl⟩
    · exact Option.some.inj hp ▸ by decide
    · exact Option.some.inj hp ▸ by decide
    · exact Option.some.inj hp ▸ by decide
  unitSteps := by
    intro terminal exposed state later hchain
    have hrank := Tables.unitStepsWithin_of_rank listOfTermsRank
      (fun _ _ hs => listOfTermsRank_lt hs) state later hchain
    exact Nat.le_trans hrank (listOfTermsRank_le state)

theorem ends_within_listOfTerms :
    listOfTerms.UnitBound 2 ∧ ["x", "x", "$"].getLast? = some listOfTerms.endMarker ∧
      ∃ run, Run.start listOfTerms ["x", "x", "$"] = .ok run ∧
        ∃ steps ≤ 21, run.Takes listOfTerms steps ∧
          ∃ answer, parseWithin listOfTerms steps ["x", "x", "$"] = some answer := by
  have hinput : ["x", "x", "$"].getLast? = some listOfTerms.endMarker := by decide
  exact ⟨listOfTerms_unitBound, hinput, ends_within listOfTerms_unitBound hinput⟩

end ListOfTerms

end ShiftReduce
