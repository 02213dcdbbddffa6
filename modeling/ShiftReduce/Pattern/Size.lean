import ShiftReduce.Pattern.Simplify
import ShiftReduce.Pattern.Utf8

/-!
# The size of a pattern

A pattern is made into a machine over bytes, and its *size* is the memory that
the states of this machine take.  A state takes 32 bytes.  A state with many
ways out takes 8 more for each range of bytes, or 4 more for each way that reads
nothing.

There are two machines.  One reads a text forward and notes where groups begin
and end.  The other reads it backward.  A machine that does not have to start at
the edge of the text skips bytes first.
-/

namespace ShiftReduce.Pattern

/-- The direction in which a machine reads. -/
inductive Direction where
  | forward
  | backward
deriving DecidableEq, Repr

/-- The memory of a state. -/
def stateSize : Nat := 32

/-- The memory of a state that tells ranges of bytes apart. -/
def sparseSize (ranges : Nat) : Nat := stateSize + 8 * ranges

/-- The memory of a state with a number of ways out that read nothing. -/
def unionSize (ways : Nat) : Nat := stateSize + 4 * ways

/-! ## Sets of characters -/

/-- The first ranges of sequences, each with the sequences behind it. -/
def byFirst : List (List CodeRange) → List (CodeRange × List (List CodeRange))
  | [] => []
  | [] :: rest => byFirst rest
  | (range :: tail) :: rest =>
    match byFirst rest with
    | (other, tails) :: more =>
      if range = other then (range, tail :: tails) :: more
      else (range, [tail]) :: (other, tails) :: more
    | [] => [(range, [tail])]

/-- The states that tell sequences apart, given by the sequences that are left.  No
sequence has more than four bytes. -/
def tails : Nat → List (List CodeRange) → List (List (List CodeRange))
  | 0, _ => []
  | depth + 1, sequences =>
    sequences :: (byFirst sequences).flatMap fun entry =>
      if entry.2.all List.isEmpty then [] else tails depth entry.2

/-- The memory of a set.  Equal ends of sequences have their states in common when
reading forward, and equal fronts when reading backward. -/
def setSize (direction : Direction) (set : CharSet) : Nat :=
  if set.isAscii then stateSize + sparseSize set.ranges.length
  else
    let sequences := Utf8.sequences set
    match direction with
    | .forward =>
      (tails 4 sequences).eraseDups.foldl (fun size s => size + sparseSize (byFirst s).length)
        stateSize
    | .backward =>
      let fronts := sequences.flatMap fun s => (List.range s.length).map fun n => s.take (n + 1)
      stateSize + unionSize sequences.length + stateSize * fronts.eraseDups.length

/-! ## Texts -/

/-- Words up to an empty one, the words up to the next empty one, and so on.  Empty
words at the front count once. -/
def chunks (words : List (List Nat)) : List (List (List Nat)) :=
  match words.dropWhile List.isEmpty with
  | [] => words.take 1 |>.map fun _ => []
  | rest => (if words.length = rest.length then [] else [[]]) ++ rest.splitOnP List.isEmpty

/-- The memory of the states that tell words apart, below the first one.  The fuel
is more than the length of the longest word. -/
def wordsBelow : Nat → List (List Nat) → Nat
  | 0, _ => 0
  | fuel + 1, words =>
    let parts := chunks words
    let ways := (parts.filter fun part => !part.isEmpty).length + (parts.length - 1)
    parts.foldl (fun size part =>
      let heads := (part.filterMap List.head?).eraseDups
      let here :=
        match heads.length with
        | 0 => 0
        | 1 => stateSize
        | n => sparseSize n
      heads.foldl (fun size head =>
        let rests := (part.filter fun word => word.head? = some head).map List.tail
        if rests.all List.isEmpty then size else size + wordsBelow fuel rests) (size + here))
      (unionSize ways)

/-- The memory of an alternative of texts. -/
def wordsSize (direction : Direction) (texts : List (List Char)) : Nat :=
  let words := texts.map fun text =>
    match direction with
    | .forward => Utf8.encodeText text
    | .backward => (Utf8.encodeText text).reverse
  stateSize + wordsBelow (words.flatten.length + 1) words

/-! ## Patterns -/

/-- The least number of bytes of a match, if there can be one. -/
def leastLength? : Pattern → Option Nat
  | empty | edge _ => some 0
  | literal text => some text.length
  | one set => if set.isEmpty then none else some 1
  | group _ body => body.leastLength?
  | seq a b => do return (← a.leastLength?) + (← b.leastLength?)
  | either a b => do return min (← a.leastLength?) (← b.leastLength?)
  | repeated _ body least _ => body.leastLength?.map (· * least)

/-- Whether a pattern has a branch after its first one. -/
def isChoice : Pattern → Bool
  | either _ _ => true
  | _ => false

/-- The memory of a pattern, where `inChoice` says that it is what is left of an
alternative whose first branches were counted. -/
def sizeWithin (direction : Direction) (inChoice : Bool) : Pattern → Nat
  | empty | edge _ => stateSize
  | literal text => stateSize * (Utf8.encodeText text).length
  | one set => setSize direction set
  | group _ body =>
    let inner := sizeWithin direction false body
    match direction with
    | .forward => inner + 2 * stateSize
    | .backward => inner
  | seq a b => sizeWithin direction false a + sizeWithin direction false b
  | either a b =>
    match inChoice, (branches (either a b)).mapM text? with
    | false, some texts => wordsSize direction texts
    | _, _ =>
      (if inChoice then 0 else stateSize + unionSize 0) + 4 + sizeWithin direction false a +
        (if b.isChoice then 0 else 4) + sizeWithin direction true b
  | repeated _ body least most =>
    let inner := sizeWithin direction false body
    match least, most with
    | 0, some 1 => inner + unionSize 2 + stateSize
    | 0, none =>
      if body.leastLength?.any (0 < ·) then inner + unionSize 2
      else inner + 2 * unionSize 2 + stateSize
    | n, none => n * inner + unionSize 2
    | n, some m =>
      if n = m then n * inner
      else (if n = 0 then stateSize else n * inner) + stateSize + (m - n) * (unionSize 2 + inner)

/-- Whether a match can only begin where the text begins. -/
def fromStart : Pattern → Bool
  | edge .textStart => true
  | group _ body => body.fromStart
  | seq a b => a.fromStart || a.isBlank && b.fromStart
  | either a b => a.fromStart && b.fromStart
  | repeated _ body least _ => decide (0 < least) && body.fromStart
  | _ => false

/-- Whether a match can only end where the text ends. -/
def toEnd : Pattern → Bool
  | edge .textEnd => true
  | group _ body => body.toEnd
  | seq a b => b.toEnd || b.isBlank && a.toEnd
  | either a b => a.toEnd && b.toEnd
  | repeated _ body least _ => decide (0 < least) && body.toEnd
  | _ => false

/-- The memory of the machine of a pattern. -/
def machineSize (direction : Direction) (pattern : Pattern) : Nat :=
  let fixed :=
    match direction with
    | .forward => pattern.fromStart
    | .backward => pattern.toEnd
  let front := if fixed then stateSize else stateSize + sparseSize 1 + unionSize 2
  front + sizeWithin direction false (group 0 pattern) + stateSize

/-- The most memory that a machine may take: ten mebibytes. -/
def sizeLimit : Nat := 10 * 1024 * 1024

example : machineSize .forward (repeated true (literal ['x']) 327673 (some 327673)) = 10485744 := by
  decide +kernel

/-- Any character but a line feed takes more when read backward. -/
example :
    let set := CharSet.compl 0x10FFFF (.single '\n')
    setSize .forward set = 424 ∧ setSize .backward set = 1000 := by
  decide +kernel

end ShiftReduce.Pattern
