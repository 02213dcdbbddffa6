import ShiftReduce.Proofs.Paths
import ShiftReduce.Tables.Declaration

/-!
# The forest of a run

A run builds trees without keeping them.  A shift makes a leaf of the symbol
read, and a reduction gathers the topmost trees under a node.  So a stack of
`n + 1` states stands for a forest of `n` trees, one between each state and the
next.

The forest tells the whole run.  Its leaves are the symbols read, and its
post-order is the history.  `Trace.Forest` lists what holds of it, and
`exists_forest` says that every run has one, whatever tables it goes by.

The invariant is `Run.Grown`, with the trees in the order of the stack, the
topmost first.  `Run.Grown.step` carries it over one move.
-/

namespace ShiftReduce

/-! ## Trees -/

/-- A tree that a run has built.  Every part carries the state that was pushed
when it was made. -/
inductive SyntaxTree where
  | leaf (symbol : Symbol) (state : State)
  | node (id : ProductionId) (state : State) (children : List SyntaxTree)

namespace SyntaxTree

mutual

/-- The symbols of a tree, from left to right. -/
def leaves : SyntaxTree → List Symbol
  | .leaf symbol _ => [symbol]
  | .node _ _ children => leavesOfAll children

def leavesOfAll : List SyntaxTree → List Symbol
  | [] => []
  | tree :: trees => tree.leaves ++ leavesOfAll trees

end

mutual

/-- The events of a tree in post-order. -/
def events : SyntaxTree → List Event
  | .leaf symbol state => [.shift symbol state]
  | .node id state children => eventsOfAll children ++ [.reduce id state]

def eventsOfAll : List SyntaxTree → List Event
  | [] => []
  | tree :: trees => tree.events ++ eventsOfAll trees

end

theorem leavesOfAll_eq (trees : List SyntaxTree) : leavesOfAll trees = trees.flatMap leaves := by
  induction trees with
  | nil => rfl
  | cons tree trees ih => rw [leavesOfAll, ih, List.flatMap_cons]

theorem eventsOfAll_eq (trees : List SyntaxTree) : eventsOfAll trees = trees.flatMap events := by
  induction trees with
  | nil => rfl
  | cons tree trees ih => rw [eventsOfAll, ih, List.flatMap_cons]

@[simp] theorem leaves_leaf (symbol : Symbol) (state : State) :
    (leaf symbol state).leaves = [symbol] := rfl

@[simp] theorem leaves_node (id : ProductionId) (state : State) (children : List SyntaxTree) :
    (node id state children).leaves = children.flatMap leaves := by
  rw [leaves, leavesOfAll_eq]

@[simp] theorem events_leaf (symbol : Symbol) (state : State) :
    (leaf symbol state).events = [.shift symbol state] := rfl

@[simp] theorem events_node (id : ProductionId) (state : State) (children : List SyntaxTree) :
    (node id state children).events = children.flatMap events ++ [.reduce id state] := by
  rw [events, eventsOfAll_eq]

mutual

theorem accept_not_mem_events : ∀ tree : SyntaxTree, Event.accept ∉ tree.events
  | .leaf _ _ => by simp [events]
  | .node _ _ children => by simp [events, accept_not_mem_eventsOfAll children]

theorem accept_not_mem_eventsOfAll :
    ∀ trees : List SyntaxTree, Event.accept ∉ eventsOfAll trees
  | [] => by simp [eventsOfAll]
  | tree :: trees => by
      simp [eventsOfAll, accept_not_mem_events tree, accept_not_mem_eventsOfAll trees]

end

/-- Every node has a production that is defined, and as many children as the
production has symbols on its right-hand side. -/
inductive Fits (tables : Tables) : SyntaxTree → Prop where
  | leaf (symbol : Symbol) (state : State) : Fits tables (.leaf symbol state)
  | node {id : ProductionId} {production : Production} {state : State}
      {children : List SyntaxTree} (defined : tables.production? id = some production)
      (arity : children.length = production.size) (fits : ∀ child ∈ children, Fits tables child) :
      Fits tables (.node id state children)

/-- The tables lead over a tree from one state to the next.  Over a leaf they do
so by a shift, and over a node by the goto for the left-hand side. -/
def Joins (tables : Tables) (state : State) : SyntaxTree → State → Prop
  | .leaf symbol pushed, next =>
      pushed = next ∧ tables.action? state symbol = some (.shift next)
  | .node id pushed _, next =>
      pushed = next ∧ ∃ production, tables.production? id = some production ∧
        tables.goto? state production.lhs = some next

end SyntaxTree

/-! ## Forests of a record -/

/-- The events before the acceptance, if there is one at the end. -/
def withoutAcceptance (events : List Event) : List Event :=
  if events.getLast? = some .accept then events.dropLast else events

/-- The trees, from left to right, are what a run on the input has built when it
leaves this record. -/
structure Trace.Forest (tables : Tables) (input : List Symbol) (trace : Trace)
    (trees : List SyntaxTree) : Prop where
  /-- There is a tree for every state but the lowest. -/
  size : trees.length = trace.stack.length - 1
  leaves : trees.flatMap SyntaxTree.leaves = input.take trace.position
  fits : ∀ tree ∈ trees, tree.Fits tables
  /-- The post-order is what the run did. -/
  events : trees.flatMap SyntaxTree.events = withoutAcceptance trace.events
  bottom : trace.stack[0]? = some startState
  /-- Each tree stands between a state and the next. -/
  joins : ∀ place tree state next, trees[place]? = some tree → trace.stack[place]? = some state →
    trace.stack[place + 1]? = some next → tree.Joins tables state next

/-! ## The invariant -/

/-- The trees, the topmost first, are what the run has built so far. -/
structure Run.Grown (tables : Tables) (input : List Symbol) (run : Run)
    (trees : List SyntaxTree) : Prop where
  path : Path (SyntaxTree.Joins tables) run.stack trees
  fits : ∀ tree ∈ trees, tree.Fits tables
  input_eq : input = trees.reverse.flatMap SyntaxTree.leaves ++ run.unread
  position_eq : run.position = (trees.reverse.flatMap SyntaxTree.leaves).length
  events_eq : run.events = trees.reverse.flatMap SyntaxTree.events

namespace Run.Grown

variable {tables : Tables} {input : List Symbol} {run next : Run} {trees : List SyntaxTree}

theorem start (tables : Tables) (input : List Symbol) :
    Grown tables input { unread := input } [] where
  path := .start
  fits := by simp
  input_eq := rfl
  position_eq := rfl
  events_eq := rfl

theorem shift (h : Grown tables input run trees) {symbol : Symbol} {rest : List Symbol}
    {state : State} (hu : run.unread = symbol :: rest)
    (ha : tables.action? run.top symbol = some (.shift state)) :
    Grown tables input (run.shift symbol rest state) (.leaf symbol state :: trees) where
  path := by
    have hpath := h.path
    rw [run.stack_eq_cons] at hpath
    rw [shift_stack, run.stack_eq_cons]
    exact .push hpath ⟨rfl, ha⟩
  fits := by
    intro tree hm
    rcases List.mem_cons.1 hm with rfl | hm
    · exact .leaf symbol state
    · exact h.fits tree hm
  input_eq := by simpa [hu] using h.input_eq
  position_eq := by simpa using h.position_eq
  events_eq := by simp [h.events_eq]

/-- A reduction gathers the topmost trees. -/
theorem reduce (h : Grown tables input run trees) {id : ProductionId} {production : Production}
    {exposed : State} {below : List State} {state : State}
    (hp : tables.production? id = some production)
    (hd : run.stack.drop production.size = exposed :: below)
    (hg : tables.goto? exposed production.lhs = some state) :
    Grown tables input (run.replace id (exposed :: below) state)
      (.node id state (trees.take production.size).reverse :: trees.drop production.size) := by
  obtain ⟨hpath, hlength⟩ := h.path.pop hd
  -- nothing is lost or put in another order by gathering
  have hsplit : trees.reverse =
      (trees.drop production.size).reverse ++ (trees.take production.size).reverse := by
    rw [← List.reverse_append, List.take_append_drop]
  constructor
  · exact .push hpath ⟨rfl, production, hp, hg⟩
  · intro tree hm
    rcases List.mem_cons.1 hm with rfl | hm
    · refine .node hp (by rw [List.length_reverse, hlength]) fun child hc => ?_
      exact h.fits child (List.mem_of_mem_take (List.mem_reverse.1 hc))
    · exact h.fits tree (List.mem_of_mem_drop hm)
  · rw [h.input_eq, hsplit]
    simp
  · rw [replace_position, h.position_eq, hsplit]
    simp
  · rw [replace_events, h.events_eq, hsplit]
    simp

/-- A run that goes on keeps a forest. -/
theorem step (h : Grown tables input run trees) (hs : run.Step tables .running next) :
    ∃ grown, Grown tables input next grown := by
  cases hs with
  | shift hu ha => exact ⟨_, h.shift hu ha⟩
  | reduce hu ha hp hd hg => exact ⟨_, h.reduce hp hd hg⟩

theorem forest (h : Grown tables input run trees) :
    run.trace.Forest tables input trees.reverse where
  size := by simp [trace, h.path.length_eq]
  leaves := by
    rw [h.input_eq]
    simp only [trace, h.position_eq, List.take_left]
  fits := by
    intro tree hm
    exact h.fits tree (List.mem_reverse.1 hm)
  events := by
    have hlast : run.trace.events.getLast? ≠ some .accept := by
      intro hl
      have hm : Event.accept ∈ SyntaxTree.eventsOfAll trees.reverse := by
        rw [SyntaxTree.eventsOfAll_eq, ← h.events_eq]
        exact List.mem_of_getLast? hl
      exact SyntaxTree.accept_not_mem_eventsOfAll trees.reverse hm
    rw [withoutAcceptance, if_neg hlast]
    exact h.events_eq.symm
  bottom := by
    rw [← List.head?_eq_getElem?]
    exact List.head?_reverse.trans h.path.getLast?_eq
  joins := by
    intro place tree state next htree hstate hnext
    exact h.path.joined_of_reverse htree hstate hnext

theorem forest_accept (h : Grown tables input run trees) :
    run.accept.trace.Forest tables input trees.reverse where
  size := h.forest.size
  leaves := h.forest.leaves
  fits := h.forest.fits
  events := by
    simp [trace, withoutAcceptance, h.events_eq]
  bottom := h.forest.bottom
  joins := h.forest.joins

end Run.Grown

/-! ## Every run has a forest -/

/-- The record of a run has a forest after any number of steps that did not
fail. -/
theorem exists_forest {tables : Tables} {input : List Symbol}
    (hinput : input.getLast? = some tables.endMarker) :
    ∃ run, Run.start tables input = .ok run ∧ ∀ count,
      (∀ k < count, run.outcome tables k = .running ∨ run.outcome tables k = .accepted) →
      ∃ trees, (run.after tables count).trace.Forest tables input trees := by
  refine ⟨{ unread := input }, Run.start_eq_ok_iff.2 ⟨hinput, rfl⟩, fun count hok => ?_⟩
  have hgrown : ∀ {n}, (∀ k < n, Run.outcome tables k { unread := input } = .running) →
      ∃ trees, Run.Grown tables input (Run.after tables n { unread := input }) trees :=
    Run.after_induction (P := fun run => ∃ trees, Run.Grown tables input run trees)
      ⟨[], .start tables input⟩ fun _ _ ⟨_, h⟩ hs => h.step hs
  cases count with
  | zero => exact ⟨[], (Run.Grown.start tables input).forest⟩
  | succ count =>
      have hbefore := Run.running_of_not_failed hok
      obtain ⟨trees, h⟩ := hgrown hbefore
      rcases hok count (Nat.lt_succ_self count) with hlast | hlast
      · obtain ⟨grown, h'⟩ := h.step (Run.step_of_running hlast)
        exact ⟨_, h'.forest⟩
      · obtain ⟨_, _, -, -, he⟩ := Run.accept_of_outcome hlast
        rw [he]
        exact ⟨_, h.forest_accept⟩

/-- The tables of the grammar `S -> a S`, `S -> ()`. -/
def rightRecursive : Tables :=
  .ofDeclarations
    [.production 1 ⟨"S", .symbols ["a", "S"]⟩, .production 2 ⟨"S", .symbols []⟩,
      .action 0 "a" (.shift 2), .action 0 "$" (.reduce 2), .action 1 "$" .accept,
      .action 2 "a" (.shift 2), .action 2 "$" (.reduce 2), .action 3 "$" (.reduce 1),
      .goto 0 "S" 1, .goto 2 "S" 3]

theorem exists_forest_rightRecursive :
    ["a", "a", "$"].getLast? = some rightRecursive.endMarker ∧
      ∃ trees, (Run.after rightRecursive 6 { unread := ["a", "a", "$"] }).trace.Forest
        rightRecursive ["a", "a", "$"] trees := by
  have hinput : ["a", "a", "$"].getLast? = some rightRecursive.endMarker := by decide
  refine ⟨hinput, ?_⟩
  obtain ⟨run, hstart, h⟩ := exists_forest hinput
  obtain ⟨-, rfl⟩ := Run.start_eq_ok_iff.1 hstart
  exact h 6 (by decide)

end ShiftReduce
