import ShiftReduce.Pattern.Basic
import ShiftReduce.Pattern.Fault

/-!
# The syntax of patterns

A written pattern is read as a *tree*.  Each part of a tree has the span of the
written pattern that it stands for, so that a fault can be shown there.

What a part means depends on the flags in force where it stands, and is told
apart later.
-/

namespace ShiftReduce.Pattern

/-! ## Flags -/

/-- A letter or hyphen among flags, and where it is. -/
structure FlagMark where
  char : Char
  position : Nat
deriving DecidableEq, Repr

/-- The value of a flag under some marks, from its value before.  Flags behind a
hyphen are taken back. -/
def flagValue (marks : List FlagMark) (letter : Char) (old : Bool) : Bool :=
  let letters := marks.map FlagMark.char
  (letters.takeWhile (· != '-')).contains letter || old && !letters.contains letter

/-! ## Characters and classes -/

/-- A written character. -/
structure Letter where
  char : Char
  /-- Whether it was written as a byte, by two hexadecimal digits. -/
  isByte : Bool
  span : Span
deriving DecidableEq, Repr

/-- A way to put two classes together. -/
inductive ClassOperator where
  | inter
  | diff
  | symmDiff
deriving DecidableEq, Repr

/-- A class of characters. -/
inductive ClassTree where
  | empty (span : Span)
  | char (letter : Letter)
  | range (first last : Letter)
  | named (negated : Bool) (set : CharSet) (span : Span)
  /-- A set with a letter: digits, blanks or the characters of words. -/
  | shorthand (negated : Bool) (set : CharSet) (span : Span)
  /-- A property of characters, and why it is not known. -/
  | property (cause : Cause) (span : Span)
  /-- A class in brackets, which may stand for all other characters. -/
  | bracket (negated : Bool) (body : ClassTree) (span : Span)
  | union (items : List ClassTree) (span : Span)
  | binary (operator : ClassOperator) (left right : ClassTree)

/-- Where a class is. -/
def ClassTree.span : ClassTree → Span
  | empty span | named _ _ span | shorthand _ _ span | property _ span | bracket _ _ span
  | union _ span => span
  | char letter => letter.span
  | range first last => ⟨first.span.start, last.span.stop⟩
  | binary _ left right => ⟨left.span.start, right.span.stop⟩

/-! ## Trees -/

/-- A written edge. -/
inductive EdgeMark where
  | circumflex
  | dollar
  | textStart
  | textEnd
  | word (edge : WordEdge)
deriving DecidableEq, Repr

/-- How a group begins. -/
inductive Opening where
  | numbered (number : Nat)
  | flagged (marks : List FlagMark)
deriving DecidableEq, Repr

/-- A written pattern. -/
inductive Tree where
  | empty
  | flags (marks : List FlagMark)
  | char (letter : Letter)
  | dot (span : Span)
  | edge (mark : EdgeMark) (span : Span)
  /-- A class of characters outside brackets, or in its outermost ones. -/
  | cls (tree : ClassTree)
  | repeated (greedy : Bool) (body : Tree) (least : Nat) (most : Option Nat) (span : Span)
  | group (opening : Opening) (body : Tree) (span : Span)
  | sequence (items : List Tree) (span : Span)
  | choice (branches : List Tree) (span : Span)

/-- Where a tree is, if it is more than flags. -/
def Tree.span : Tree → Span
  | empty | flags _ => ⟨0, 0⟩
  | char letter => letter.span
  | cls tree => tree.span
  | dot span | edge _ span | repeated _ _ _ _ span | group _ _ span | sequence _ span
  | choice _ span => span

/-! ## Depth -/

/-- How deep the parts of a written pattern may be nested. -/
def depthLimit : Nat := 250

mutual

/-- The first part of a class that is nested too deep, where the class is in a
number of parts. -/
def ClassTree.tooDeep? (depth : Nat) : ClassTree → Option Span
  | .bracket _ body span => if depth < depthLimit then body.tooDeep? (depth + 1) else some span
  | .union items span => if depth < depthLimit then classesTooDeep? (depth + 1) items else some span
  | .binary op left right =>
    if depth < depthLimit then
      (left.tooDeep? (depth + 1)).or (right.tooDeep? (depth + 1))
    else some (ClassTree.binary op left right).span
  | _ => none

/-- The first part of some classes that is nested too deep. -/
def classesTooDeep? (depth : Nat) : List ClassTree → Option Span
  | [] => none
  | tree :: rest => (tree.tooDeep? depth).or (classesTooDeep? depth rest)

end

mutual

/-- The first part of a tree that is nested too deep, where the tree is in a number
of parts. -/
def Tree.tooDeep? (depth : Nat) : Tree → Option Span
  | .cls tree => tree.tooDeep? depth
  | .repeated _ body _ _ span | .group _ body span =>
    if depth < depthLimit then body.tooDeep? (depth + 1) else some span
  | .sequence items span | .choice items span =>
    if depth < depthLimit then treesTooDeep? (depth + 1) items else some span
  | _ => none

/-- The first part of some trees that is nested too deep. -/
def treesTooDeep? (depth : Nat) : List Tree → Option Span
  | [] => none
  | tree :: rest => (tree.tooDeep? depth).or (treesTooDeep? depth rest)

end

example : flagValue [⟨'i', 2⟩, ⟨'-', 3⟩, ⟨'u', 4⟩] 'u' true = false := by decide

end ShiftReduce.Pattern
