import Mathlib.Logic.Relation
import ShiftReduce.Run.Basic

/-!
# The grammar of the tables

The productions of the tables are the productions of a grammar.  A symbol is a
*non-terminal* if it is the left-hand side of one of them, and a terminal
otherwise.  A production of which only the length is known derives nothing.

`ParseTree` is the family of the parse trees of the grammar by their roots.  A
node holds a forest over the right-hand side of its production.  A tree derives
its word (`ParseTree.derives`), and the word has terminals only
(`ParseTree.terminal_of_mem`).

`ParseTree.moves` reads a tree off the tables.  It lists the shift of every leaf
and the reduction of every node, in post-order, with the states that the tables
lead to.
-/

namespace ShiftReduce

/-! ## Derivations -/

namespace Tables

/-- The left-hand sides of the productions. -/
def NonTerminal (tables : Tables) (symbol : Symbol) : Prop :=
  ∃ id production, tables.production? id = some production ∧ production.lhs = symbol

inductive Rewrites (tables : Tables) : List Symbol → List Symbol → Prop where
  | rewrite {id : ProductionId} {lhs : Symbol} {rhs : List Symbol} (front back : List Symbol)
      (defined : tables.production? id = some ⟨lhs, .symbols rhs⟩) :
      Rewrites tables (front ++ lhs :: back) (front ++ rhs ++ back)

def Derives (tables : Tables) : List Symbol → List Symbol → Prop :=
  Relation.ReflTransGen tables.Rewrites

theorem Rewrites.context {tables : Tables} {form form' : List Symbol}
    (h : tables.Rewrites form form') (front back : List Symbol) :
    tables.Rewrites (front ++ form ++ back) (front ++ form' ++ back) := by
  cases h with
  | rewrite inner outer defined =>
      simpa using Rewrites.rewrite (front ++ inner) (outer ++ back) defined

/-- Derivations may be carried out in any surroundings. -/
theorem Derives.context {tables : Tables} {form form' : List Symbol}
    (h : tables.Derives form form') (front back : List Symbol) :
    tables.Derives (front ++ form ++ back) (front ++ form' ++ back) := by
  induction h with
  | refl => exact .refl
  | tail _ hs ih => exact ih.tail (hs.context front back)

/-- Derivations of two forms are a derivation of the two together. -/
theorem Derives.append {tables : Tables} {left left' right right' : List Symbol}
    (hl : tables.Derives left left') (hr : tables.Derives right right') :
    tables.Derives (left ++ right) (left' ++ right') := by
  have hfirst : tables.Derives (left ++ right) (left' ++ right) := by
    simpa using hl.context [] right
  have hsecond : tables.Derives (left' ++ right) (left' ++ right') := by
    simpa using hr.context left' []
  exact hfirst.trans hsecond

theorem Derives.eq_nil {tables : Tables} {form : List Symbol} (h : tables.Derives [] form) :
    form = [] := by
  induction h with
  | refl => rfl
  | tail _ hs ih =>
      subst ih
      generalize he : ([] : List Symbol) = empty at hs
      cases hs with
      | rewrite front back _ => simp at he

end Tables

/-! ## Parse trees -/

mutual

/-- The parse trees with a given root. -/
inductive ParseTree (tables : Tables) : Symbol → Type where
  | leaf (terminal : Symbol) (isTerminal : ¬ tables.NonTerminal terminal) :
      ParseTree tables terminal
  | node (id : ProductionId) (lhs : Symbol) (rhs : List Symbol)
      (defined : tables.production? id = some ⟨lhs, .symbols rhs⟩)
      (children : ParseForest tables rhs) : ParseTree tables lhs

inductive ParseForest (tables : Tables) : List Symbol → Type where
  | nil : ParseForest tables []
  | cons {symbol : Symbol} {symbols : List Symbol} (tree : ParseTree tables symbol)
      (trees : ParseForest tables symbols) : ParseForest tables (symbol :: symbols)

end

mutual

/-- The leaves of a tree, from left to right. -/
def ParseTree.word {tables : Tables} : {root : Symbol} → ParseTree tables root → List Symbol
  | _, .leaf terminal _ => [terminal]
  | _, .node _ _ _ _ children => children.word

def ParseForest.word {tables : Tables} :
    {roots : List Symbol} → ParseForest tables roots → List Symbol
  | _, .nil => []
  | _, .cons tree trees => tree.word ++ trees.word

end

mutual

/-- The events of a tree in post-order, and the state they lead to from a given
one. -/
def ParseTree.moves {tables : Tables} (state : State) :
    {root : Symbol} → ParseTree tables root → Option (List Event × State)
  | _, .leaf terminal _ =>
    match tables.action? state terminal with
    | some (.shift next) => some ([.shift terminal next], next)
    | _ => none
  | _, .node id lhs _ _ children => do
    let (events, _) ← children.moves state
    let next ← tables.goto? state lhs
    return (events ++ [.reduce id next], next)

def ParseForest.moves {tables : Tables} (state : State) :
    {roots : List Symbol} → ParseForest tables roots → Option (List Event × State)
  | _, .nil => some ([], state)
  | _, .cons tree trees => do
    let (events, next) ← tree.moves state
    let (later, last) ← trees.moves next
    return (events ++ later, last)

end

mutual

/-- A tree derives its word from its root. -/
theorem ParseTree.derives {tables : Tables} :
    ∀ {root : Symbol} (tree : ParseTree tables root), tables.Derives [root] tree.word
  | _, .leaf terminal _ => by
      rw [ParseTree.word]
      exact .refl
  | _, .node _ lhs rhs defined children => by
      have hfirst : tables.Rewrites [lhs] rhs := by
        simpa using Tables.Rewrites.rewrite [] [] defined
      rw [ParseTree.word]
      exact .head hfirst children.derives

theorem ParseForest.derives {tables : Tables} :
    ∀ {roots : List Symbol} (forest : ParseForest tables roots),
      tables.Derives roots forest.word
  | _, .nil => by
      rw [ParseForest.word]
      exact .refl
  | _, .cons tree trees => by
      rw [ParseForest.word]
      exact tree.derives.append trees.derives

end

mutual

/-- The word of a tree has terminals only. -/
theorem ParseTree.terminal_of_mem {tables : Tables} {symbol : Symbol} :
    ∀ {root : Symbol} (tree : ParseTree tables root), symbol ∈ tree.word →
      ¬ tables.NonTerminal symbol
  | _, .leaf terminal isTerminal, hm => by
      rw [ParseTree.word, List.mem_singleton] at hm
      exact hm ▸ isTerminal
  | _, .node _ _ _ _ children, hm => by
      rw [ParseTree.word] at hm
      exact children.terminal_of_mem hm

theorem ParseForest.terminal_of_mem {tables : Tables} {symbol : Symbol} :
    ∀ {roots : List Symbol} (forest : ParseForest tables roots), symbol ∈ forest.word →
      ¬ tables.NonTerminal symbol
  | _, .nil, hm => by
      rw [ParseForest.word] at hm
      cases hm
  | _, .cons tree trees, hm => by
      rw [ParseForest.word, List.mem_append] at hm
      rcases hm with hm | hm
      · exact tree.terminal_of_mem hm
      · exact trees.terminal_of_mem hm

end

end ShiftReduce
