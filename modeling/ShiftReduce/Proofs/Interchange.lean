import ShiftReduce.Proofs.Comparison
import ShiftReduce.Proofs.FirstDeclared
import ShiftReduce.Proofs.Lockstep
import ShiftReduce.Proofs.Reduction
import ShiftReduce.Proofs.Relabelling

/-!
# Tables that a run cannot tell apart

A run asks its tables for actions, for gotos, and for the left-hand side and the length
of a production.  A missing action is the same to it as an explicit error.  Tables that
answer these questions alike are *interchangeable*.  They may differ in what they list
and in how they compare.

On interchangeable tables every run is the same at every step
(`Tables.Interchangeable.runAlike`).  Tables that are the same are interchangeable
(`Tables.interchangeable_of_same`).  So are tables whose right-hand sides are reduced to
their lengths (`Tables.interchangeable_bare`), and tables with errors entered for actions
that are missing (`Tables.interchangeable_withErrors`).
-/

namespace ShiftReduce

namespace Tables

/-- The tables give the same answers to the questions that a run asks. -/
structure Interchangeable (a b : Tables) : Prop where
  endMarker : a.endMarker = b.endMarker
  /-- A missing action counts as an error. -/
  action : ∀ state terminal,
    (a.action? state terminal).getD .error = (b.action? state terminal).getD .error
  goto : ∀ state nonTerminal, a.goto? state nonTerminal = b.goto? state nonTerminal
  production : ∀ id, (a.production? id).map (fun rule => (rule.lhs, rule.size)) =
    (b.production? id).map fun rule => (rule.lhs, rule.size)

/-- Every run is the same on both tables, step by step, and so is every parse, also one
that never ends. -/
structure RunAlike (a b : Tables) : Prop where
  start : ∀ input, Run.start a input = Run.start b input
  outcome : ∀ run count, Run.outcome a count run = Run.outcome b count run
  after : ∀ run count, Run.after a count run = Run.after b count run
  parse : ∀ allowance input, parseWithin a allowance input = parseWithin b allowance input

namespace Interchangeable

variable {a b c : Tables} {run next : Run} {outcome : Outcome}

theorem refl (a : Tables) : a.Interchangeable a :=
  ⟨rfl, fun _ _ => rfl, fun _ _ => rfl, fun _ => rfl⟩

theorem symm (h : a.Interchangeable b) : b.Interchangeable a where
  endMarker := h.endMarker.symm
  action state terminal := (h.action state terminal).symm
  goto state nonTerminal := (h.goto state nonTerminal).symm
  production id := (h.production id).symm

theorem trans (h : a.Interchangeable b) (h' : b.Interchangeable c) : a.Interchangeable c where
  endMarker := h.endMarker.trans h'.endMarker
  action state terminal := (h.action state terminal).trans (h'.action state terminal)
  goto state nonTerminal := (h.goto state nonTerminal).trans (h'.goto state nonTerminal)
  production id := (h.production id).trans (h'.production id)

/-! ## One step -/

theorem action_eq_some (h : a.Interchangeable b) {state : State} {terminal : Symbol}
    {what : Action} (hne : what ≠ .error) (ha : a.action? state terminal = some what) :
    b.action? state terminal = some what := by
  have hget := h.action state terminal
  rw [ha, Option.getD_some] at hget
  cases hb : b.action? state terminal with
  | none => exact absurd (by rw [hget, hb, Option.getD_none]) hne
  | some what' => rw [hget, hb, Option.getD_some]

theorem action_eq_error (h : a.Interchangeable b) {state : State} {terminal : Symbol}
    (ha : a.action? state terminal = some .error ∨ a.action? state terminal = none) :
    b.action? state terminal = some .error ∨ b.action? state terminal = none := by
  have hget := h.action state terminal
  cases hb : b.action? state terminal with
  | none => exact .inr rfl
  | some what =>
      rcases ha with ha | ha <;> rw [ha, hb] at hget <;> exact .inl (congrArg some hget.symm)

theorem production_eq_none (h : a.Interchangeable b) {id : ProductionId}
    (hp : a.production? id = none) : b.production? id = none := by
  have hmap := h.production id
  rw [hp, Option.map_none] at hmap
  exact Option.map_eq_none_iff.1 hmap.symm

theorem production_eq_some (h : a.Interchangeable b) {id : ProductionId} {rule : Production}
    (hp : a.production? id = some rule) :
    ∃ rule', b.production? id = some rule' ∧ rule'.lhs = rule.lhs ∧ rule'.size = rule.size := by
  have hmap := h.production id
  rw [hp, Option.map_some] at hmap
  obtain ⟨rule', hrule', heq⟩ := Option.map_eq_some_iff.1 hmap.symm
  exact ⟨rule', hrule', (Prod.mk.inj heq).1, (Prod.mk.inj heq).2⟩

theorem reduces (h : a.Interchangeable b) {id : ProductionId} {stack left : List State}
    {result : Except ReductionError State} (hr : a.Reduces id stack result left) :
    b.Reduces id stack result left := by
  cases hr with
  | unknown hp => exact .unknown (h.production_eq_none hp)
  | underflow hp hd =>
      obtain ⟨rule, hp', -, hsize⟩ := h.production_eq_some hp
      rw [← hsize] at hd ⊢
      exact .underflow hp' hd
  | missingGoto hp hd hg =>
      obtain ⟨rule, hp', hlhs, hsize⟩ := h.production_eq_some hp
      rw [← hsize] at hd
      rw [h.goto, ← hlhs] at hg
      rw [← hlhs]
      exact .missingGoto hp' hd hg
  | done hp hd hg =>
      obtain ⟨rule, hp', hlhs, hsize⟩ := h.production_eq_some hp
      rw [← hsize] at hd
      rw [h.goto, ← hlhs] at hg
      exact .done hp' hd hg

/-- What can be done with some tables can be done with interchangeable ones. -/
theorem step (h : a.Interchangeable b) (hs : run.Step a outcome next) :
    run.Step b outcome next := by
  cases hs with
  | shift hu ha => exact .shift hu (h.action_eq_some nofun ha)
  | reduce hu ha hp hd hg =>
      exact .of_reduces_ok hu (h.action_eq_some nofun ha) (h.reduces (.done hp hd hg))
  | accept hu ha => exact .accept hu (h.action_eq_some nofun ha)
  | pastEnd hu => exact .pastEnd hu
  | unexpected hu ha => exact .unexpected hu (h.action_eq_error ha)
  | defect hu ha hfault =>
      exact .of_reduces_error hu (h.action_eq_some nofun ha)
        (h.reduces (reduces_of_result hfault)) _

/-! ## Runs -/

theorem lockstep (h : a.Interchangeable b) (run : Run) (count : Nat) :
    run.after b count = run.after a count ∧
      ∀ k < count, run.outcome b k = run.outcome a k :=
  run.lockstep (fun run => run) (fun _ => rfl) fun _ _ hs => h.step hs

theorem runAlike (h : a.Interchangeable b) : a.RunAlike b := by
  have houtcome (run : Run) (count : Nat) : run.outcome b count = run.outcome a count :=
    (h.lockstep run (count + 1)).2 count (Nat.lt_succ_self count)
  have hafter (run : Run) (count : Nat) : run.after b count = run.after a count :=
    (h.lockstep run count).1
  have hfollows (run : Run) : run.Follows b a run :=
    fun count _ => ⟨houtcome run count, by rw [hafter]⟩
  have hstart := Run.start_congr h.endMarker
  constructor
  · exact hstart
  · exact fun run count => (houtcome run count).symm
  · exact fun run count => (hafter run count).symm
  · intro allowance input
    cases hb : Run.start b input with
    | error error => simp only [parseWithin, hstart, hb]
    | ok run =>
        exact (parseWithin_eq_of_follows ((hstart input).trans hb) hb (hfollows run)
          allowance).symm

end Interchangeable

/-! ## What makes no difference -/

theorem interchangeable_of_same {a b : Tables} (h : a.same b = true) : a.Interchangeable b := by
  have halike := same_iff_answerAlike.1 h
  constructor
  · exact halike.endMarker
  · intro state terminal
    rw [halike.action]
  · exact halike.goto
  · intro id
    rw [halike.production]

/-- The tables with no more than the lengths of the right-hand sides. -/
def bare (tables : Tables) : Tables :=
  { tables with
    productions := tables.productions.relabel (fun id => id) Function.injective_id
      fun rule => ⟨rule.lhs, .length rule.size⟩ }

theorem interchangeable_bare (tables : Tables) : tables.Interchangeable tables.bare := by
  constructor
  · rfl
  · exact fun _ _ => rfl
  · exact fun _ _ => rfl
  · intro id
    have hget : tables.bare.production? id =
        (tables.production? id).map fun rule => ⟨rule.lhs, .length rule.size⟩ :=
      OrderedMap.get?_relabel Function.injective_id _ tables.productions id
    rw [hget, Option.map_map]
    rfl

/-- The tables with an explicit error for each of the keys that have no action. -/
def withErrors (tables : Tables) (keys : List (State × Symbol)) : Tables :=
  keys.foldl (fun tables key => tables.declareOrKeep (.action key.1 key.2 .error)) tables

theorem interchangeable_declareOrKeep_error (tables : Tables) (state : State)
    (terminal : Symbol) :
    tables.Interchangeable (tables.declareOrKeep (.action state terminal .error)) := by
  rw [declareOrKeep_action]
  refine ⟨rfl, fun state' terminal' => ?_, fun _ _ => rfl, fun _ => rfl⟩
  simp only [action?, OrderedMap.get?_insertIfNew]
  cases tables.actions.get? (state', terminal') with
  | some what => rfl
  | none => by_cases hkey : (state', terminal') = (state, terminal) <;> simp [hkey]

theorem interchangeable_withErrors (tables : Tables) (keys : List (State × Symbol)) :
    tables.Interchangeable (tables.withErrors keys) := by
  induction keys generalizing tables with
  | nil => exact .refl tables
  | cons key rest ih =>
      exact (interchangeable_declareOrKeep_error tables key.1 key.2).trans (ih _)

end Tables

/-- A run sees nothing of its tables but what it asks for.  So the order of the entries,
the symbols of right-hand sides, and errors entered where there was no action make no
difference to it. -/
theorem interchangeable_runAlike (a : Tables) :
    (∀ b, a.Interchangeable b → a.RunAlike b) ∧
      (∀ b, a.same b = true → a.RunAlike b) ∧
      a.RunAlike a.bare ∧
      ∀ keys, a.RunAlike (a.withErrors keys) :=
  ⟨fun _ h => h.runAlike, fun _ h => (Tables.interchangeable_of_same h).runAlike,
    a.interchangeable_bare.runAlike, fun keys => (a.interchangeable_withErrors keys).runAlike⟩

/-- Tables in another order, with other symbols on a right-hand side and with an error
entered.  They are not the same, and neither lists what the other does. -/
theorem interchangeable_runAlike_reordered :
    let a := Tables.ofDeclarations
      [.production 1 ⟨"E", .symbols ["x"]⟩, .action 0 "x" (.shift 2), .action 2 "$" (.reduce 1),
        .action 1 "$" .accept, .goto 0 "E" 1]
    let b := Tables.ofDeclarations
      [.goto 0 "E" 1, .action 1 "$" .accept, .action 0 "$" .error, .action 2 "$" (.reduce 1),
        .action 0 "x" (.shift 2), .production 1 ⟨"E", .symbols ["y"]⟩]
    a.Interchangeable b ∧ a.same b = false ∧ a.listing ≠ b.listing ∧
      ∀ allowance input, parseWithin a allowance input = parseWithin b allowance input := by
  intro a b
  have hsame : (a.withErrors [(0, "$")]).bare.same b.bare = true := by decide
  have h : a.Interchangeable b :=
    (a.interchangeable_withErrors _).trans <|
      (Tables.interchangeable_bare _).trans <|
        (Tables.interchangeable_of_same hsame).trans b.interchangeable_bare.symm
  exact ⟨h, by decide, by decide, ((interchangeable_runAlike a).1 b h).parse⟩

end ShiftReduce
