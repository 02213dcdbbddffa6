import ShiftReduce.Proofs.Steps

/-!
# The stack as a path

The states of a stack lie on a path that begins in the start state.  Whatever
was pushed on a state, a symbol or a tree, is the *label* that joins it to the
next one.  `Path link` is that invariant for labels of any kind and for any
condition `link` on the states that a label joins.

A reduction takes labels off the top together with their states, so what is left
is again a path (`Path.drop`).  Pushing is the constructor.

For symbols the condition is a *transition* of the tables, and labels that follow
one another form a *chain*.  The topmost labels of a stack form a chain to its
top (`Path.chain`).

Stacks and labels have their top first here.
-/

namespace ShiftReduce

/-! ## Paths -/

/-- A stack that begins in the start state and whose neighbours are joined by
labels. -/
inductive Path {α : Type} (link : State → α → State → Prop) : List State → List α → Prop where
  | start : Path link [startState] []
  | push {state next : State} {below : List State} {label : α} {labels : List α}
      (path : Path link (state :: below) labels) (joined : link state label next) :
      Path link (next :: state :: below) (label :: labels)

namespace Path

variable {α : Type} {link : State → α → State → Prop} {stack : List State} {labels : List α}

theorem length_eq (h : Path link stack labels) : stack.length = labels.length + 1 := by
  induction h with
  | start => rfl
  | push _ _ ih => rw [List.length_cons, ih, List.length_cons]

/-- What is left below the topmost labels is a path. -/
theorem drop (h : Path link stack labels) {count : Nat} (hlt : count < stack.length) :
    Path link (stack.drop count) (labels.drop count) := by
  induction h generalizing count with
  | start =>
      obtain rfl : count = 0 := by simpa using hlt
      exact .start
  | push path joined ih =>
      cases count with
      | zero => exact .push path joined
      | succ count =>
          rw [List.drop_succ_cons, List.drop_succ_cons]
          exact ih (Nat.lt_of_succ_lt_succ hlt)

/-- After a pop that exposes a state, the path ends there and the labels popped
are as many as the pop says. -/
theorem pop (h : Path link stack labels) {count : Nat} {exposed : State} {below : List State}
    (hd : stack.drop count = exposed :: below) :
    Path link (exposed :: below) (labels.drop count) ∧ (labels.take count).length = count := by
  have hlt : count < stack.length := by
    refine Nat.lt_of_not_le fun hle => ?_
    rw [List.drop_eq_nil_of_le hle] at hd
    cases hd
  refine ⟨hd ▸ h.drop hlt, ?_⟩
  have := h.length_eq
  rw [List.length_take]
  omega

theorem drop_labels (h : Path link stack labels) : stack.drop labels.length = [startState] := by
  induction h with
  | start => rfl
  | push _ _ ih => rw [List.length_cons, List.drop_succ_cons, ih]

theorem getLast?_eq (h : Path link stack labels) : stack.getLast? = some startState := by
  induction h with
  | start => rfl
  | push _ _ ih => rw [List.getLast?_cons_cons, ih]

/-- Counted from the bottom, each label joins the state at its place to the next. -/
theorem joined_of_reverse (h : Path link stack labels) {place : Nat} {label : α}
    {state next : State} (hlabel : labels.reverse[place]? = some label)
    (hstate : stack.reverse[place]? = some state)
    (hnext : stack.reverse[place + 1]? = some next) : link state label next := by
  induction h with
  | start => simp at hlabel
  | @push _ _ _ _ labels path joined ih =>
      have hlength := path.length_eq
      rw [List.reverse_cons] at hlabel hstate hnext
      rcases Nat.lt_trichotomy place labels.length with hlt | rfl | hgt
      · rw [List.getElem?_append_left (by simpa using hlt)] at hlabel
        rw [List.getElem?_append_left (by simp at hlength ⊢; omega)] at hstate hnext
        exact ih hlabel hstate hnext
      · simp only [List.length_cons, Nat.add_right_cancel_iff] at hlength
        rw [List.getElem?_append_right (by simp)] at hlabel
        rw [List.getElem?_append_left (by simp [hlength])] at hstate
        rw [List.getElem?_append_right (by simp [hlength])] at hnext
        simp [← hlength] at hlabel hstate hnext
        rw [← hlabel, ← hstate, ← hnext]
        exact joined
      · rw [List.getElem?_eq_none (by simp; omega)] at hlabel
        cases hlabel

end Path

/-! ## Transitions and chains -/

namespace Tables

/-- A symbol takes the automaton from a state to the next, by a shift or by a goto. -/
def Transition (tables : Tables) (state : State) (symbol : Symbol) (next : State) : Prop :=
  tables.action? state symbol = some (.shift next) ∨ tables.goto? state symbol = some next

/-- Transitions that follow one another, with their symbols in order. -/
inductive Chain (tables : Tables) (origin : State) : List Symbol → State → Prop where
  | nil : Chain tables origin [] origin
  | snoc {symbols : List Symbol} {state next : State} {symbol : Symbol}
      (chain : Chain tables origin symbols state)
      (transition : tables.Transition state symbol next) :
      Chain tables origin (symbols ++ [symbol]) next

theorem Chain.eq_nil_or_snoc {tables : Tables} {origin state : State} {symbols : List Symbol}
    (h : tables.Chain origin symbols state) :
    symbols = [] ∧ state = origin ∨ ∃ front middle symbol, symbols = front ++ [symbol] ∧
      tables.Chain origin front middle ∧ tables.Transition middle symbol state := by
  cases h with
  | nil => exact .inl ⟨rfl, rfl⟩
  | snoc chain transition => exact .inr ⟨_, _, _, rfl, chain, transition⟩

end Tables

/-- The topmost labels of a stack form a chain from the state below them to the
top. -/
theorem Path.chain {tables : Tables} {stack : List State} {symbols : List Symbol}
    (h : Path tables.Transition stack symbols) {count : Nat} {exposed : State}
    {below : List State} (hd : stack.drop count = exposed :: below) {top : State}
    {under : List State} (ht : stack = top :: under) :
    tables.Chain exposed (symbols.take count).reverse top := by
  induction h generalizing count top under with
  | start =>
      cases count with
      | zero =>
          obtain ⟨rfl, rfl⟩ := List.cons.inj (hd.symm.trans ht)
          exact .nil
      | succ count => simp at hd
  | push path joined ih =>
      cases count with
      | zero =>
          obtain ⟨rfl, rfl⟩ := List.cons.inj (hd.symm.trans ht)
          exact .nil
      | succ count =>
          obtain ⟨rfl, rfl⟩ := List.cons.inj ht
          rw [List.drop_succ_cons] at hd
          rw [List.take_succ_cons, List.reverse_cons]
          exact .snoc (ih hd rfl) joined

end ShiftReduce
