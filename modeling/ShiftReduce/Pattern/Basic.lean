import ShiftReduce.Pattern.CharSet

/-!
# Patterns

A *pattern* is a regular expression.  It *occurs* in a text if some part of the
text matches it.

A place of a text is before, between or after its characters.  A set of places
is a list of *marks*, one for each place from the first to the last.  From the
places where a match may begin `ends` finds those where it may end.  So no
match is ever taken back, and neither the order of alternatives nor the greed
of repetitions counts.

`ends_seq` and `ends_either` say how the two ways to put patterns together act
on places.
-/

namespace ShiftReduce

/-- A condition on the two sides of a place, with regard to words. -/
inductive WordEdge where
  /-- A word begins or ends. -/
  | either
  /-- No word begins or ends. -/
  | neither
  | start
  | stop
  /-- No word goes on to the left. -/
  | startHalf
  /-- No word goes on to the right. -/
  | stopHalf
deriving DecidableEq, Repr

/-- A condition on the two sides of a place. -/
inductive Edge where
  | textStart
  | textEnd
  /-- A line begins.  A line may also end with a carriage return. -/
  | lineStart (carriageReturn : Bool)
  /-- A line ends.  A line may also end with a carriage return. -/
  | lineEnd (carriageReturn : Bool)
  | word (edge : WordEdge) (allScripts : Bool)
deriving DecidableEq, Repr

/-- A regular expression. -/
inductive Pattern where
  | empty
  | literal (text : List Char)
  | one (set : CharSet)
  | edge (edge : Edge)
  /-- Matches what its body matches.  Groups are numbered from the left. -/
  | group (number : Nat) (body : Pattern)
  | seq (a b : Pattern)
  | either (a b : Pattern)
  | repeated (greedy : Bool) (body : Pattern) (least : Nat) (most : Option Nat)
deriving DecidableEq, Repr

/-! ## Edges -/

/-- Whether a character is there and belongs to a word. -/
def inWord (c : Option Char) : Bool := c.any CharSet.word.contains

/-- Whether an edge of a word is between two characters, which may be missing. -/
def WordEdge.holds (before after : Option Char) : WordEdge → Bool
  | .either => inWord before != inWord after
  | .neither => inWord before == inWord after
  | .start => !inWord before && inWord after
  | .stop => inWord before && !inWord after
  | .startHalf => !inWord before
  | .stopHalf => !inWord after

/-- Whether an edge is between two characters, which may be missing.  Only ASCII
characters are known to belong to words. -/
def Edge.holds (before after : Option Char) : Edge → Bool
  | .textStart => before.isNone
  | .textEnd => after.isNone
  | .lineStart false => before.all (· == '\n')
  | .lineEnd false => after.all (· == '\n')
  | .lineStart true =>
    before.all fun c => c == '\n' || c == '\r' && after != some '\n'
  | .lineEnd true =>
    after.all fun c => c == '\r' || c == '\n' && before != some '\r'
  | .word edge _ => edge.holds before after

namespace Pattern

/-! ## Marks -/

/-- The places that are marked in one list or the other. -/
def join : List Bool → List Bool → List Bool := List.zipWith (· || ·)

/-- The places that are marked in both lists. -/
def meet : List Bool → List Bool → List Bool := List.zipWith (· && ·)

/-- The places of a text that have an edge. -/
def edgeMarks (edge : Edge) (text : List Char) : List Bool :=
  List.zipWith (fun before after => edge.holds before after)
    (none :: text.map some) (text.map some ++ [none])

/-- The places behind a character that passes a test and is at a marked place. -/
def pass (test : Char → Bool) (text : List Char) (marks : List Bool) : List Bool :=
  false :: List.zipWith (fun c mark => mark && test c) text marks

/-- Moves marks a number of times.  When they stay where they are they always will. -/
def moveTimes (move : List Bool → List Bool) : Nat → List Bool → List Bool
  | 0, marks => marks
  | n + 1, marks =>
    let moved := move marks
    if moved = marks then marks else moveTimes move n moved

/-- Moves marks at most a number of times, and keeps them where they were.  When
nothing is added nothing ever will be. -/
def moveUpTo (move : List Bool → List Bool) : Nat → List Bool → List Bool
  | 0, marks => marks
  | n + 1, marks =>
    let grown := join marks (move marks)
    if grown = marks then marks else moveUpTo move n grown

/-! ## Matches -/

/-- The places where a match may end that begins at a marked place.  More moves
than a text has places make no difference. -/
def ends (text : List Char) : Pattern → List Bool → List Bool
  | empty, marks => marks
  | literal chars, marks => chars.foldl (fun marks c => pass (· == c) text marks) marks
  | one set, marks => pass set.contains text marks
  | edge e, marks => meet marks (edgeMarks e text)
  | group _ body, marks => ends text body marks
  | seq a b, marks => ends text b (ends text a marks)
  | either a b, marks => join (ends text a marks) (ends text b marks)
  | repeated _ body least most, marks =>
    let places := text.length + 1
    let further := (most.map fun n => n - least).getD places
    moveUpTo (ends text body) (min further places)
      (moveTimes (ends text body) (min least places) marks)

/-- Whether some part of a text matches a pattern. -/
def occursIn (pattern : Pattern) (text : String) : Bool :=
  let chars := text.toList
  (pattern.ends chars (true :: chars.map fun _ => true)).any id

/-- A match of a sequence ends where a match of its second part ends that begins
where one of its first part ends. -/
theorem ends_seq (text : List Char) (a b : Pattern) (marks : List Bool) :
    (seq a b).ends text marks = b.ends text (a.ends text marks) := rfl

/-- A match of an alternative ends where a match of one of the two ends. -/
theorem ends_either (text : List Char) (a b : Pattern) (marks : List Bool) :
    (either a b).ends text marks = join (a.ends text marks) (b.ends text marks) := rfl

example : (seq (repeated true (one .digit) 2 none) (edge .textEnd)).occursIn "7 12" = true := by
  decide

example :
    (seq (edge (.word .start false)) (literal ['a', 'b'])).occursIn "xab ab" = true ∧
      (seq (edge (.word .start false)) (literal ['a', 'b'])).occursIn "xab" = false := by
  decide

end Pattern

end ShiftReduce
