import ShiftReduce.Proofs.Forest

/-!
# Accepted inputs are derived

A reduction counts states and compares no symbols.  So a run spells out a
derivation only if the tables see to it.  Two conditions on their transitions are
enough.

* `Tables.Spelled`: every chain that is as long as a right-hand side and leads to
  a state that reduces by it has its symbols.
* `Tables.AcceptsOnly`: acceptance stands in one state only, at the end-marker,
  and a single symbol leads there from the start state.

Then the reductions of a run that accepts are a rightmost derivation of what was
read, the last one first (`acceptance_sound`).

The invariant is `Run.Derived`.  The symbols along the stack, followed by any
symbols to come, derive what was read followed by the same symbols.
-/

namespace ShiftReduce

/-! ## Rightmost derivations -/

def Event.reduced? : Event → Option ProductionId
  | .reduce id _ => some id
  | .shift _ _ | .accept => none

/-- The productions reduced by, in the order of the events. -/
def reductions (events : List Event) : List ProductionId := events.filterMap Event.reduced?

@[simp] theorem reductions_append (events later : List Event) :
    reductions (events ++ later) = reductions events ++ reductions later :=
  List.filterMap_append

@[simp] theorem reductions_shift (symbol : Symbol) (next : State) :
    reductions [.shift symbol next] = [] := rfl

@[simp] theorem reductions_reduce (id : ProductionId) (next : State) :
    reductions [.reduce id next] = [id] := rfl

@[simp] theorem reductions_accept : reductions [.accept] = [] := rfl

/-- Productions rewrite one form to another.  Each replaces an occurrence of its
left-hand side with nothing to the right of it but an end of the sentence. -/
inductive RightmostDerivation (tables : Tables) (sentence : List Symbol) :
    List Symbol → List ProductionId → List Symbol → Prop where
  | refl (form : List Symbol) : RightmostDerivation tables sentence form [] form
  | head {front rhs suffix last : List Symbol} {lhs : Symbol} {id : ProductionId}
      {ids : List ProductionId}
      (defined : tables.production? id = some ⟨lhs, .symbols rhs⟩)
      (outermost : suffix <:+ sentence)
      (rest : RightmostDerivation tables sentence (front ++ rhs ++ suffix) ids last) :
      RightmostDerivation tables sentence (front ++ lhs :: suffix) (id :: ids) last

/-! ## Conditions on the tables -/

/-- Every way to a state that reduces spells the right-hand side of the
production. -/
def Tables.Spelled (tables : Tables) : Prop :=
  ∀ state terminal id, tables.action? state terminal = some (.reduce id) →
    ∃ lhs rhs, tables.production? id = some ⟨lhs, .symbols rhs⟩ ∧
      ∀ origin symbols, tables.Chain origin symbols state → symbols.length = rhs.length →
        symbols = rhs

/-- Acceptance stands in the goal at the end-marker only, and the only chain from
the start state to the goal is a single transition. -/
def Tables.AcceptsOnly (tables : Tables) (goal : State) (symbol : Symbol) : Prop :=
  (∀ state terminal, tables.action? state terminal = some .accept →
    state = goal ∧ terminal = tables.endMarker) ∧
  ∀ symbols, tables.Chain startState symbols goal ↔ symbols = [symbol]

/-! ## The invariant -/

/-- The symbols along the stack, the topmost first, derive what was read. -/
structure Run.Derived (tables : Tables) (input : List Symbol) (run : Run)
    (symbols consumed : List Symbol) : Prop where
  path : Path tables.Transition run.stack symbols
  input_eq : input = consumed ++ run.unread
  position_eq : run.position = consumed.length
  derivation : ∀ later, RightmostDerivation tables (consumed ++ later) (symbols.reverse ++ later)
    (reductions run.events).reverse (consumed ++ later)

namespace Run.Derived

variable {tables : Tables} {input : List Symbol} {run next : Run} {symbols consumed : List Symbol}

theorem start (tables : Tables) (input : List Symbol) :
    Derived tables input { unread := input } [] [] where
  path := .start
  input_eq := rfl
  position_eq := rfl
  derivation := fun later => .refl later

theorem shift (h : Derived tables input run symbols consumed) {symbol : Symbol}
    {rest : List Symbol} {state : State} (hu : run.unread = symbol :: rest)
    (ha : tables.action? run.top symbol = some (.shift state)) :
    Derived tables input (run.shift symbol rest state) (symbol :: symbols)
      (consumed ++ [symbol]) where
  path := by
    have hpath := h.path
    rw [run.stack_eq_cons] at hpath
    rw [shift_stack, run.stack_eq_cons]
    exact .push hpath (.inl ha)
  input_eq := by simpa [hu] using h.input_eq
  position_eq := by simp [h.position_eq]
  derivation := by
    intro later
    simpa using h.derivation (symbol :: later)

theorem reduce (h : Derived tables input run symbols consumed) {id : ProductionId}
    {lhs : Symbol} {rhs : List Symbol} {exposed : State} {below : List State} {state : State}
    (hp : tables.production? id = some ⟨lhs, .symbols rhs⟩)
    (hspelled : ∀ origin word, tables.Chain origin word run.top → word.length = rhs.length →
      word = rhs)
    (hd : run.stack.drop rhs.length = exposed :: below)
    (hg : tables.goto? exposed lhs = some state) :
    Derived tables input (run.replace id (exposed :: below) state)
      (lhs :: symbols.drop rhs.length) consumed := by
  obtain ⟨hpath, hlength⟩ := h.path.pop hd
  -- the symbols that go with the states popped are the right-hand side
  have hrhs : (symbols.take rhs.length).reverse = rhs :=
    hspelled exposed _ (h.path.chain hd run.stack_eq_cons) (by rw [List.length_reverse, hlength])
  have hsplit : symbols.reverse = (symbols.drop rhs.length).reverse ++ rhs := by
    rw [← List.take_append_drop rhs.length symbols, List.reverse_append, hrhs,
      List.take_append_drop]
  refine ⟨.push hpath (.inr hg), h.input_eq, h.position_eq, fun later => ?_⟩
  have hlast := h.derivation later
  rw [hsplit] at hlast
  simpa using RightmostDerivation.head hp (List.suffix_append consumed later) hlast

theorem step (h : Derived tables input run symbols consumed) (hspelled : tables.Spelled)
    (hs : run.Step tables .running next) :
    ∃ symbols' consumed', Derived tables input next symbols' consumed' := by
  cases hs with
  | shift hu ha => exact ⟨_, _, h.shift hu ha⟩
  | reduce hu ha hp hd hg =>
      obtain ⟨lhs, rhs, hp', hword⟩ := hspelled _ _ _ ha
      obtain rfl := Option.some.inj (hp'.symm.trans hp)
      exact ⟨_, _, h.reduce hp hword hd hg⟩

/-- In the goal the whole stack is the goal on the start state, and the one symbol
along it derives what was read. -/
theorem stack_eq (h : Derived tables input run symbols consumed) {goal : State}
    {symbol : Symbol} (hgoal : ∀ word, tables.Chain startState word goal ↔ word = [symbol])
    (htop : run.top = goal) : symbols = [symbol] ∧ run.stack = [goal, startState] := by
  have hchain := h.path.chain h.path.drop_labels run.stack_eq_cons
  rw [htop, List.take_length, hgoal, List.reverse_eq_iff, List.reverse_singleton] at hchain
  have hbottom := h.path.drop_labels
  rw [hchain, run.stack_eq_cons, htop] at hbottom
  refine ⟨hchain, ?_⟩
  rw [run.stack_eq_cons, htop]
  exact congrArg (goal :: ·) hbottom

end Run.Derived

/-! ## Soundness -/

/-- On tables that are spelled and accept in the goal only, an accepted input ends
its run in the goal at the end-marker, and its reductions are a rightmost
derivation of what was read, the last one first. -/
theorem acceptance_sound {tables : Tables} {goal : State} {symbol : Symbol}
    (hspelled : tables.Spelled) (haccepts : tables.AcceptsOnly goal symbol) {allowance : Nat}
    {input : List Symbol} {trace : Trace}
    (h : parseWithin tables allowance input = some (.ok trace)) :
    trace.stack = [startState, goal] ∧ input[trace.position]? = some tables.endMarker ∧
      RightmostDerivation tables (input.take trace.position) [symbol]
        (reductions trace.events).reverse (input.take trace.position) := by
  obtain ⟨run, hstart, last, -, hbefore, hend, rfl⟩ := parseWithin_eq_ok_iff.1 h
  obtain ⟨-, rfl⟩ := Run.start_eq_ok_iff.1 hstart
  obtain ⟨symbols, consumed, hd⟩ := Run.after_induction
    (P := fun run => ∃ symbols consumed, Run.Derived tables input run symbols consumed)
    ⟨[], [], .start tables input⟩ (fun _ _ ⟨_, _, h⟩ hs => h.step hspelled hs) hbefore
  obtain ⟨terminal, rest, hu, ha, he⟩ := Run.accept_of_outcome hend
  obtain ⟨htop, rfl⟩ := haccepts.1 _ _ ha
  obtain ⟨rfl, hstack⟩ := hd.stack_eq haccepts.2 htop
  have hposition : (Run.after tables (last + 1) { unread := input }).trace.position =
      consumed.length := by rw [he]; exact hd.position_eq
  have htake : input.take consumed.length = consumed := by
    rw [hd.input_eq, List.take_left]
  refine ⟨?_, ?_, ?_⟩
  · rw [he, Run.trace, Run.accept_stack, hstack]
    rfl
  · rw [hposition, hd.input_eq, hu, List.getElem?_append_right (Nat.le_refl _)]
    simp
  · rw [hposition, htake, he]
    simpa [Run.trace] using hd.derivation []

section RightRecursive

variable {state next : State} {symbol : Symbol}

theorem rightRecursive_action {action : Action}
    (h : rightRecursive.action? state symbol = some action) :
    ((state, symbol), action) ∈ [((0, "a"), .shift 2), ((0, "$"), .reduce 2), ((1, "$"), .accept),
      ((2, "a"), .shift 2), ((2, "$"), .reduce 2), ((3, "$"), .reduce 1)] :=
  OrderedMap.get?_eq_some_iff.1 h

theorem rightRecursive_goto (h : rightRecursive.goto? state symbol = some next) :
    ((state, symbol), next) ∈ [((0, "S"), 1), ((2, "S"), 3)] :=
  OrderedMap.get?_eq_some_iff.1 h

/-- No symbol but `a` leads to the state 2, and none but `S` to the states 1 and 3. -/
theorem rightRecursive_transition (h : rightRecursive.Transition state symbol next) :
    next = 2 ∧ symbol = "a" ∨ next = 1 ∧ symbol = "S" ∧ state = 0 ∨
      next = 3 ∧ symbol = "S" ∧ state = 2 := by
  rcases h with h | h
  · have hm := rightRecursive_action h
    simp at hm
    rcases hm with ⟨⟨-, hs⟩, hn⟩ | ⟨⟨-, hs⟩, hn⟩ <;> exact .inl ⟨hn, hs⟩
  · have hm := rightRecursive_goto h
    simp at hm
    rcases hm with ⟨⟨hq, hs⟩, hn⟩ | ⟨⟨hq, hs⟩, hn⟩
    · exact .inr (.inl ⟨hn, hs, hq⟩)
    · exact .inr (.inr ⟨hn, hs, hq⟩)

theorem rightRecursive_spelled : rightRecursive.Spelled := by
  intro state terminal id ha
  have hm := rightRecursive_action ha
  simp at hm
  rcases hm with ⟨-, rfl⟩ | ⟨-, rfl⟩ | ⟨⟨rfl, -⟩, rfl⟩
  · refine ⟨"S", [], rfl, fun origin symbols _ hlength => ?_⟩
    exact List.eq_nil_of_length_eq_zero hlength
  · refine ⟨"S", [], rfl, fun origin symbols _ hlength => ?_⟩
    exact List.eq_nil_of_length_eq_zero hlength
  · refine ⟨"S", ["a", "S"], rfl, fun origin symbols hc hlength => ?_⟩
    rcases hc.eq_nil_or_snoc with ⟨rfl, -⟩ | ⟨front, middle, last, rfl, hc, ht⟩
    · cases hlength
    · obtain ⟨rfl, rfl⟩ : last = "S" ∧ middle = 2 := by simpa using rightRecursive_transition ht
      rcases hc.eq_nil_or_snoc with ⟨rfl, -⟩ | ⟨front, middle, first, rfl, -, ht⟩
      · cases hlength
      · obtain rfl : first = "a" := by simpa using rightRecursive_transition ht
        obtain rfl : front = [] := by simpa using hlength
        rfl

/-- Nothing leads to the start state, and only `S` leads from there to the goal. -/
theorem rightRecursive_acceptsOnly : rightRecursive.AcceptsOnly 1 "S" := by
  refine ⟨fun state terminal ha => ?_, fun symbols => ⟨fun hc => ?_, ?_⟩⟩
  · have hm := rightRecursive_action ha
    simp at hm
    exact hm
  · rcases hc.eq_nil_or_snoc with ⟨-, h⟩ | ⟨front, middle, last, rfl, hc, ht⟩
    · exact absurd h (by decide)
    · obtain ⟨rfl, rfl⟩ : last = "S" ∧ middle = 0 := by simpa using rightRecursive_transition ht
      rcases hc.eq_nil_or_snoc with ⟨rfl, -⟩ | ⟨_, _, _, _, -, ht⟩
      · rfl
      · exact absurd (rightRecursive_transition ht) (by simp)
  · rintro rfl
    exact show rightRecursive.Chain startState ([] ++ ["S"]) 1 from .snoc .nil (.inr rfl)

theorem acceptance_sound_rightRecursive :
    rightRecursive.Spelled ∧ rightRecursive.AcceptsOnly 1 "S" ∧
      RightmostDerivation rightRecursive ["a", "a"] ["S"] [1, 1, 2] ["a", "a"] := by
  refine ⟨rightRecursive_spelled, rightRecursive_acceptsOnly, ?_⟩
  have h : parseWithin rightRecursive 6 ["a", "a", "$"] =
      some (.ok ⟨[.shift "a" 2, .shift "a" 2, .reduce 2 3, .reduce 1 3, .reduce 1 1, .accept],
        [0, 1], 2⟩) := by
    rfl
  exact (acceptance_sound rightRecursive_spelled rightRecursive_acceptsOnly h).2.2

end RightRecursive

end ShiftReduce
