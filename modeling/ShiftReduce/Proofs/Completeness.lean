import Mathlib.Data.Set.Defs
import ShiftReduce.Proofs.Grammar
import ShiftReduce.Proofs.Soundness

/-!
# Sentences are accepted

An *item* is a production with a dot in its right-hand side and a lookahead, a
symbol that may follow.  A family of sets of items, one for each state, is
*closed* if the tables do what its items ask for (`Tables.ItemFamily`).  How the
family was come by does not matter.

On tables with such a family the run on the word of a parse tree goes through the
tree in post-order and accepts (`parseTree_accepted`).  So it ends, which no
count of steps has to be given for.

The proof is by recursion on trees and forests.  A tree starts in a state that is
ready for it (`Tables.Ready`): the state knows where to go from its root, and has
the items that begin there.  A forest starts in a state that has an item with the
dot before its roots.  What follows a tree within a forest is the first symbol of
the trees after it, or the lookahead of the item if those are empty.
-/

namespace ShiftReduce

/-! ## Items -/

/-- A dot in a right-hand side, and a symbol that may follow it all. -/
structure Item where
  id : ProductionId
  dot : Nat
  lookahead : Symbol

namespace Tables

/-- A symbol begins a word that a form derives, followed by the lookahead. -/
def Begins (tables : Tables) (form : List Symbol) (lookahead symbol : Symbol) : Prop :=
  ∃ word, tables.Derives form word ∧ (∀ terminal ∈ word, ¬ tables.NonTerminal terminal) ∧
    (word ++ [lookahead]).head? = some symbol

/-- The tables do what the items of every state ask for. -/
structure ItemFamily (tables : Tables) (start : Symbol) (goal : State)
    (items : State → Set Item) : Prop where
  nonTerminal : tables.NonTerminal start
  initial : ∀ {id : ProductionId} {rhs : List Symbol},
    tables.production? id = some ⟨start, .symbols rhs⟩ →
      ⟨id, 0, tables.endMarker⟩ ∈ items startState
  goto : ∀ {state : State} {id : ProductionId} {lhs : Symbol} {rhs : List Symbol} {dot : Nat}
    {lookahead symbol : Symbol}, ⟨id, dot, lookahead⟩ ∈ items state →
      tables.production? id = some ⟨lhs, .symbols rhs⟩ → rhs[dot]? = some symbol →
      tables.NonTerminal symbol →
      ∃ next, tables.goto? state symbol = some next ∧ ⟨id, dot + 1, lookahead⟩ ∈ items next
  closure : ∀ {state : State} {id : ProductionId} {lhs : Symbol} {rhs : List Symbol} {dot : Nat}
    {lookahead symbol : Symbol}, ⟨id, dot, lookahead⟩ ∈ items state →
      tables.production? id = some ⟨lhs, .symbols rhs⟩ → rhs[dot]? = some symbol →
      ∀ {inner : ProductionId} {form : List Symbol} {first : Symbol},
        tables.production? inner = some ⟨symbol, .symbols form⟩ →
        tables.Begins (rhs.drop (dot + 1)) lookahead first → ⟨inner, 0, first⟩ ∈ items state
  shift : ∀ {state : State} {id : ProductionId} {lhs : Symbol} {rhs : List Symbol} {dot : Nat}
    {lookahead symbol : Symbol}, ⟨id, dot, lookahead⟩ ∈ items state →
      tables.production? id = some ⟨lhs, .symbols rhs⟩ → rhs[dot]? = some symbol →
      ¬ tables.NonTerminal symbol →
      ∃ next, tables.action? state symbol = some (.shift next) ∧
        ⟨id, dot + 1, lookahead⟩ ∈ items next
  reduce : ∀ {state : State} {id : ProductionId} {lhs : Symbol} {rhs : List Symbol}
    {lookahead : Symbol}, ⟨id, rhs.length, lookahead⟩ ∈ items state →
      tables.production? id = some ⟨lhs, .symbols rhs⟩ →
      tables.action? state lookahead = some (.reduce id)
  acceptance : tables.goto? startState start = some goal ∧
    tables.action? goal tables.endMarker = some .accept

/-- A state is ready for a tree with this root that is followed by this symbol: it
knows the state to go to, and has the items that begin with the root. -/
structure Ready (tables : Tables) (items : State → Set Item) (state : State)
    (root follow : Symbol) (next : State) : Prop where
  shift : ¬ tables.NonTerminal root → tables.action? state root = some (.shift next)
  goto : tables.NonTerminal root → tables.goto? state root = some next
  opened : ∀ {id : ProductionId} {rhs : List Symbol},
    tables.production? id = some ⟨root, .symbols rhs⟩ → ⟨id, 0, follow⟩ ∈ items state

/-- A state with the dot before a symbol is ready for it, and the state to go to
has the dot behind the symbol. -/
theorem ItemFamily.ready {tables : Tables} {start : Symbol} {goal : State}
    {items : State → Set Item} (family : tables.ItemFamily start goal items) {state : State}
    {id : ProductionId} {lhs : Symbol} {rhs : List Symbol} {dot : Nat}
    {lookahead symbol follow : Symbol} (hitem : ⟨id, dot, lookahead⟩ ∈ items state)
    (hp : tables.production? id = some ⟨lhs, .symbols rhs⟩) (hsymbol : rhs[dot]? = some symbol)
    (hfollow : tables.Begins (rhs.drop (dot + 1)) lookahead follow) :
    ∃ next, tables.Ready items state symbol follow next ∧
      ⟨id, dot + 1, lookahead⟩ ∈ items next := by
  have hopened := fun {inner : ProductionId} {form : List Symbol}
    (hi : tables.production? inner = some ⟨symbol, .symbols form⟩) =>
      family.closure hitem hp hsymbol hi hfollow
  by_cases hn : tables.NonTerminal symbol
  · obtain ⟨next, hgoto, hnext⟩ := family.goto hitem hp hsymbol hn
    exact ⟨next, ⟨fun ht => absurd hn ht, fun _ => hgoto, hopened⟩, hnext⟩
  · obtain ⟨next, hshift, hnext⟩ := family.shift hitem hp hsymbol hn
    exact ⟨next, ⟨fun _ => hshift, fun ht => absurd ht hn, hopened⟩, hnext⟩

end Tables

/-! ## Stretches of a run -/

/-- A run goes on to another by steps that read a word, push states and do
events. -/
structure Run.Stretch (tables : Tables) (run : Run) (word : List Symbol) (pushed : List State)
    (events : List Event) (last : Run) : Prop where
  advance : ∃ count, run.advance tables count = ⟨0, .running, last⟩
  going : last.finished = false
  stack : last.stack = pushed ++ run.stack
  unread : run.unread = word ++ last.unread
  position : last.position = run.position + word.length
  events : last.events = run.events ++ events

namespace Run.Stretch

variable {tables : Tables} {run middle last : Run} {word word' : List Symbol}
  {pushed pushed' : List State} {events events' : List Event}

theorem refl (h : run.finished = false) : Stretch tables run [] [] [] run where
  advance := ⟨0, rfl⟩
  going := h
  stack := rfl
  unread := rfl
  position := rfl
  events := (List.append_nil _).symm

theorem trans (h : Stretch tables run word pushed events middle)
    (h' : Stretch tables middle word' pushed' events' last) :
    Stretch tables run (word ++ word') (pushed' ++ pushed) (events ++ events') last where
  advance := by
    obtain ⟨m, hm⟩ := h.advance
    obtain ⟨n, hn⟩ := h'.advance
    refine ⟨m + n, ?_⟩
    rw [advance_add, hm]
    exact hn
  going := h'.going
  stack := by rw [h'.stack, h.stack, List.append_assoc]
  unread := by rw [h.unread, h'.unread, List.append_assoc]
  position := by rw [h'.position, h.position, List.length_append, Nat.add_assoc]
  events := by rw [h'.events, h.events, List.append_assoc]

theorem advance_step (h : Stretch tables run word pushed events middle)
    (hs : middle.Step tables .running last) :
    ∃ count, run.advance tables count = ⟨0, .running, last⟩ := by
  obtain ⟨count, hc⟩ := h.advance
  refine ⟨count + 1, ?_⟩
  rw [advance_add, hc]
  simp only [if_true, Run.advance, hs.step_eq h.going]

theorem shift (h : run.finished = false) {symbol : Symbol} {rest : List Symbol} {next : State}
    (hu : run.unread = symbol :: rest)
    (ha : tables.action? run.top symbol = some (.shift next)) :
    Stretch tables run [symbol] [next] [.shift symbol next] (run.shift symbol rest next) where
  advance := (refl h).advance_step (.shift hu ha)
  going := h
  stack := rfl
  unread := hu
  position := rfl
  events := shift_events run symbol rest next

/-- A stretch that has pushed the states of a right-hand side, and the reduction
that takes them off again. -/
theorem reduce (h : Stretch tables run word pushed events middle) {symbol : Symbol}
    {rest : List Symbol} {id : ProductionId} {production : Production} {next : State}
    (hu : middle.unread = symbol :: rest)
    (ha : tables.action? middle.top symbol = some (.reduce id))
    (hp : tables.production? id = some production) (hlength : pushed.length = production.size)
    (hg : tables.goto? run.top production.lhs = some next) :
    Stretch tables run word [next] (events ++ [.reduce id next])
      (middle.replace id run.stack next) := by
  have hd : middle.stack.drop production.size = run.top :: run.stack.tail := by
    rw [h.stack, ← hlength, List.drop_left]
    exact run.stack_eq_cons
  have hs := Step.reduce hu ha hp hd hg
  rw [← run.stack_eq_cons] at hs
  exact
    { advance := h.advance_step hs
      going := h.going
      stack := rfl
      unread := h.unread
      position := h.position
      events := by rw [replace_events, h.events, List.append_assoc] }

end Run.Stretch

/-! ## Trees and forests -/

section

variable {tables : Tables} {start : Symbol} {goal : State} {items : State → Set Item}

mutual

/-- From a state that is ready for a tree, the run goes through the tree. -/
theorem ParseTree.stretch (family : tables.ItemFamily start goal items) :
    ∀ {root : Symbol} (tree : ParseTree tables root) {run : Run} {follow : Symbol}
      {rest : List Symbol} {next : State}, run.finished = false →
      run.unread = tree.word ++ follow :: rest →
      tables.Ready items run.top root follow next →
      ∃ events last, tree.moves run.top = some (events, next) ∧
        run.Stretch tables tree.word [next] events last
  | _, .leaf terminal isTerminal, run, follow, rest, next, hgoing, hu, hready => by
      have ha := hready.shift isTerminal
      rw [ParseTree.word] at hu ⊢
      refine ⟨[.shift terminal next], _, ?_, .shift hgoing hu ha⟩
      rw [ParseTree.moves, ha]
  | _, .node id lhs rhs defined children, run, follow, rest, next, hgoing, hu, hready => by
      have hgoto := hready.goto ⟨id, _, defined, rfl⟩
      rw [ParseTree.word] at hu ⊢
      obtain ⟨events, last, pushed, hmoves, hstretch, hlength, hitem⟩ :=
        ParseForest.stretch family children hgoing hu defined (Nat.zero_le _) List.drop_zero
          (hready.opened defined)
      have hunread : last.unread = follow :: rest :=
        List.append_cancel_left (hstretch.unread.symm.trans hu)
      have ha := family.reduce hitem defined
      refine ⟨_, _, ?_, hstretch.reduce hunread ha defined hlength hgoto⟩
      rw [ParseTree.moves, hmoves]
      simp [hgoto]

/-- From a state with the dot before a forest, the run goes through the forest and
ends with the dot behind it. -/
theorem ParseForest.stretch (family : tables.ItemFamily start goal items) :
    ∀ {roots : List Symbol} (forest : ParseForest tables roots) {run : Run} {follow : Symbol}
      {rest : List Symbol} {id : ProductionId} {lhs : Symbol} {rhs : List Symbol} {dot : Nat},
      run.finished = false → run.unread = forest.word ++ follow :: rest →
      tables.production? id = some ⟨lhs, .symbols rhs⟩ → dot ≤ rhs.length →
      rhs.drop dot = roots → ⟨id, dot, follow⟩ ∈ items run.top →
      ∃ events last pushed, forest.moves run.top = some (events, last.top) ∧
        run.Stretch tables forest.word pushed events last ∧
        pushed.length = roots.length ∧ ⟨id, rhs.length, follow⟩ ∈ items last.top
  | _, .nil, run, follow, rest, id, lhs, rhs, dot, hgoing, hu, hp, hdot, hroots, hitem => by
      obtain rfl : dot = rhs.length := Nat.le_antisymm hdot (List.drop_eq_nil_iff.1 hroots)
      exact ⟨[], run, [], rfl, .refl hgoing, rfl, hitem⟩
  | _, @ParseForest.cons _ symbol symbols tree trees, run, follow, rest, id, lhs, rhs, dot,
      hgoing, hu, hp, hdot, hroots, hitem => by
      have hsymbol : rhs[dot]? = some symbol := by
        rw [← List.head?_drop, hroots, List.head?_cons]
      have hsymbols : rhs.drop (dot + 1) = symbols := by
        rw [← List.tail_drop, hroots, List.tail_cons]
      -- the first tree is followed by the word of the others, or by what follows them all
      obtain ⟨second, later, hsecond, hbegin⟩ : ∃ second later,
          trees.word ++ follow :: rest = second :: later ∧
            (trees.word ++ [follow]).head? = some second := by
        cases trees.word with
        | nil => exact ⟨follow, rest, rfl, rfl⟩
        | cons terminal word => exact ⟨terminal, word ++ follow :: rest, rfl, rfl⟩
      have hbegins : tables.Begins (rhs.drop (dot + 1)) follow second :=
        ⟨trees.word, hsymbols ▸ trees.derives, fun _ hm => trees.terminal_of_mem hm, hbegin⟩
      obtain ⟨next, hready, hnext⟩ := family.ready hitem hp hsymbol hbegins
      rw [ParseForest.word, List.append_assoc, hsecond] at hu
      obtain ⟨events, middle, hmoves, hstretch⟩ := tree.stretch family hgoing hu hready
      have htop : middle.top = next := Run.top_of_stack hstretch.stack
      have hunread : middle.unread = trees.word ++ follow :: rest :=
        (List.append_cancel_left (hstretch.unread.symm.trans hu)).trans hsecond.symm
      have hlt : dot < rhs.length := (List.getElem?_eq_some_iff.1 hsymbol).1
      obtain ⟨events', last, pushed, hmoves', hstretch', hlength, hitem'⟩ :=
        trees.stretch family hstretch.going hunread hp hlt hsymbols (htop ▸ hnext)
      rw [htop] at hmoves'
      refine ⟨events ++ events', last, pushed ++ [next], ?_, ?_, ?_, hitem'⟩
      · simp [ParseForest.moves, hmoves, hmoves']
      · exact hstretch.trans hstretch'
      · rw [List.length_append, hlength, List.length_singleton, List.length_cons]

end

/-- On tables with a closed family of items, the run on the word of a parse tree
does the tree in post-order and accepts. -/
theorem parseTree_accepted (family : tables.ItemFamily start goal items)
    (tree : ParseTree tables start) :
    ∃ events, tree.moves startState = some (events, goal) ∧
      ∃ allowance, parseWithin tables allowance (tree.word ++ [tables.endMarker]) =
        some (.ok ⟨events ++ [.accept], [startState, goal], tree.word.length⟩) := by
  have hready : tables.Ready items startState start tables.endMarker goal :=
    { shift := fun h => absurd family.nonTerminal h
      goto := fun _ => family.acceptance.1
      opened := family.initial }
  obtain ⟨run, hrun⟩ : ∃ run : Run, run = { unread := tree.word ++ [tables.endMarker] } :=
    ⟨_, rfl⟩
  have hstart : Run.start tables (tree.word ++ [tables.endMarker]) = .ok run :=
    Run.start_eq_ok_iff.2 ⟨List.getLast?_concat, hrun⟩
  have hunread : run.unread = tree.word ++ [tables.endMarker] := by rw [hrun]
  obtain ⟨events, last, hmoves, h⟩ := tree.stretch family (by rw [hrun]) hunread
    (show tables.Ready items run.top start tables.endMarker goal by rw [hrun]; exact hready)
  have htop : last.top = goal := Run.top_of_stack h.stack
  have hleft : last.unread = [tables.endMarker] :=
    List.append_cancel_left (h.unread.symm.trans hunread)
  have hs : last.Step tables .accepted last.accept :=
    .accept hleft (htop ▸ family.acceptance.2)
  obtain ⟨count, hcount⟩ := h.advance
  have hlast : run.advance tables (count + 1) = ⟨0, .accepted, last.accept⟩ := by
    rw [Run.advance_add, hcount]
    simp only [if_true, Run.advance, hs.step_eq h.going]
  have hevents : last.events = events := by
    rw [h.events, hrun]
    rfl
  have hrecord : last.accept.trace =
      ⟨events ++ [.accept], [startState, goal], tree.word.length⟩ := by
    simp [Run.trace, hevents, h.stack, h.position, hrun]
  refine ⟨events, by rw [hrun] at hmoves; exact hmoves, count + 1, ?_⟩
  rw [parseWithin, hstart]
  simp only [Run.answerWithin, hlast, hrecord]

end

/-! ## An example -/

section RightRecursive

theorem rightRecursive_production {id : ProductionId} {lhs : Symbol} {rhs : List Symbol}
    (h : rightRecursive.production? id = some ⟨lhs, .symbols rhs⟩) :
    lhs = "S" ∧ (id = 1 ∧ rhs = ["a", "S"] ∨ id = 2 ∧ rhs = []) := by
  have hm : (id, Production.mk lhs (.symbols rhs)) ∈
      [(1, ⟨"S", .symbols ["a", "S"]⟩), (2, ⟨"S", .symbols []⟩)] :=
    OrderedMap.get?_eq_some_iff.1 h
  simp at hm
  rcases hm with ⟨hid, hl, hr⟩ | ⟨hid, hl, hr⟩
  · exact ⟨hl, .inl ⟨hid, hr⟩⟩
  · exact ⟨hl, .inr ⟨hid, hr⟩⟩

theorem rightRecursive_nonTerminal : rightRecursive.NonTerminal "S" := ⟨1, _, rfl, rfl⟩

theorem rightRecursive_terminal : ¬ rightRecursive.NonTerminal "a" := by
  rintro ⟨id, ⟨lhs, rhs⟩, hp, hlhs⟩
  have hm : (id, Production.mk lhs rhs) ∈
      [(1, ⟨"S", .symbols ["a", "S"]⟩), (2, ⟨"S", .symbols []⟩)] :=
    OrderedMap.get?_eq_some_iff.1 hp
  simp at hm hlhs
  rcases hm with ⟨-, hl, -⟩ | ⟨-, hl, -⟩ <;> simp [hl] at hlhs

/-- The items of the example, all with the end-marker as the lookahead. -/
def rightRecursiveItems (state : State) : Set Item :=
  {item | item.lookahead = "$" ∧ (state, item.id, item.dot) ∈
    [(0, 1, 0), (0, 2, 0), (2, 1, 1), (2, 1, 0), (2, 2, 0), (3, 1, 2)]}

/-- The dot stands before `a` in the states 0 and 2, and before `S` in the state 2. -/
theorem rightRecursive_dot {state : State} {id : ProductionId} {lhs : Symbol}
    {rhs : List Symbol} {dot : Nat} {lookahead symbol : Symbol}
    (hitem : ⟨id, dot, lookahead⟩ ∈ rightRecursiveItems state)
    (hp : rightRecursive.production? id = some ⟨lhs, .symbols rhs⟩)
    (hsymbol : rhs[dot]? = some symbol) :
    id = 1 ∧ lookahead = "$" ∧ (dot = 0 ∧ symbol = "a" ∧ (state = 0 ∨ state = 2) ∨
      dot = 1 ∧ symbol = "S" ∧ state = 2) := by
  obtain ⟨hlookahead, hm⟩ := hitem
  obtain ⟨-, ⟨rfl, rfl⟩ | ⟨rfl, rfl⟩⟩ := rightRecursive_production hp
  · simp at hm
    rcases hm with ⟨hstate, rfl⟩ | ⟨hstate, rfl⟩ | ⟨hstate, rfl⟩ | ⟨hstate, rfl⟩
    · exact ⟨rfl, hlookahead, .inl ⟨rfl, by simpa using hsymbol.symm, .inl hstate⟩⟩
    · exact ⟨rfl, hlookahead, .inr ⟨rfl, by simpa using hsymbol.symm, hstate⟩⟩
    · exact ⟨rfl, hlookahead, .inl ⟨rfl, by simpa using hsymbol.symm, .inr hstate⟩⟩
    · cases hsymbol
  · cases hsymbol

theorem rightRecursive_itemFamily :
    rightRecursive.ItemFamily "S" 1 rightRecursiveItems where
  nonTerminal := rightRecursive_nonTerminal
  initial := by
    intro id rhs hp
    obtain ⟨-, ⟨rfl, -⟩ | ⟨rfl, -⟩⟩ := rightRecursive_production hp
    · exact ⟨rfl, by simp [startState]⟩
    · exact ⟨rfl, by simp [startState]⟩
  goto := by
    intro state id lhs rhs dot lookahead symbol hitem hp hsymbol hn
    obtain ⟨rfl, rfl, ⟨-, rfl, -⟩ | ⟨rfl, rfl, rfl⟩⟩ := rightRecursive_dot hitem hp hsymbol
    · exact absurd hn rightRecursive_terminal
    · exact ⟨3, rfl, rfl, by simp⟩
  closure := by
    intro state id lhs rhs dot lookahead symbol hitem hp hsymbol inner form first hi hfirst
    obtain ⟨hs, hinner⟩ := rightRecursive_production hi
    obtain ⟨hid, rfl, ⟨-, ha, -⟩ | ⟨rfl, -, rfl⟩⟩ := rightRecursive_dot hitem hp hsymbol
    · rw [hs] at ha
      exact absurd ha (by decide)
    · -- nothing stands behind `S`, so only the lookahead can follow
      obtain ⟨-, ⟨-, rfl⟩ | ⟨rfl, -⟩⟩ := rightRecursive_production hp
      · obtain ⟨word, hword, -, hhead⟩ := hfirst
        obtain rfl := hword.eq_nil
        obtain rfl := Option.some.inj hhead
        rcases hinner with ⟨rfl, -⟩ | ⟨rfl, -⟩
        · exact ⟨rfl, by simp⟩
        · exact ⟨rfl, by simp⟩
      · exact absurd hid (by decide)
  shift := by
    intro state id lhs rhs dot lookahead symbol hitem hp hsymbol hn
    obtain ⟨rfl, rfl, ⟨rfl, rfl, rfl | rfl⟩ | ⟨rfl, rfl, rfl⟩⟩ :=
      rightRecursive_dot hitem hp hsymbol
    · exact ⟨2, rfl, rfl, by simp⟩
    · exact ⟨2, rfl, rfl, by simp⟩
    · exact absurd rightRecursive_nonTerminal hn
  reduce := by
    intro state id lhs rhs lookahead hitem hp
    obtain ⟨hlookahead, hm⟩ := hitem
    obtain rfl : lookahead = "$" := hlookahead
    obtain ⟨-, ⟨rfl, rfl⟩ | ⟨rfl, rfl⟩⟩ := rightRecursive_production hp
    · obtain rfl : state = 3 := by simpa using hm
      rfl
    · obtain rfl | rfl : state = 0 ∨ state = 2 := by simpa using hm
      · rfl
      · rfl
  acceptance := ⟨rfl, rfl⟩

/-- The parse tree of `a a`. -/
def rightRecursiveTree : ParseTree rightRecursive "S" :=
  .node 1 "S" ["a", "S"] rfl <| .cons (.leaf "a" rightRecursive_terminal) <| .cons
    (.node 1 "S" ["a", "S"] rfl <| .cons (.leaf "a" rightRecursive_terminal) <| .cons
      (.node 2 "S" [] rfl .nil) .nil) .nil

theorem parseTree_accepted_rightRecursive :
    rightRecursive.ItemFamily "S" 1 rightRecursiveItems ∧
      ∃ allowance, parseWithin rightRecursive allowance ["a", "a", "$"] = some (.ok
        ⟨[.shift "a" 2, .shift "a" 2, .reduce 2 3, .reduce 1 3, .reduce 1 1, .accept],
          [0, 1], 2⟩) := by
  refine ⟨rightRecursive_itemFamily, ?_⟩
  obtain ⟨events, hmoves, h⟩ := parseTree_accepted rightRecursive_itemFamily rightRecursiveTree
  have hevents : rightRecursiveTree.moves startState = some
      ([.shift "a" 2, .shift "a" 2, .reduce 2 3, .reduce 1 3, .reduce 1 1], 1) := rfl
  obtain ⟨rfl, -⟩ := Prod.mk.inj (Option.some.inj (hevents.symm.trans hmoves))
  exact h

end RightRecursive

end ShiftReduce
