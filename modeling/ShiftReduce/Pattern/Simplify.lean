import ShiftReduce.Pattern.Basic

/-!
# Simple patterns

Patterns are put together so that they stay simple.  A sequence holds no empty
pattern, no sequence and no two texts in a row.  An alternative of alternatives
is one alternative, and one of sets, or of characters, is a set.  What all
sequences of an alternative begin with stands once, in front of it.  What
matches nothing but the empty text is not repeated.

Sequences and alternatives lean to the right: `items` and `branches` give what
they are made of.
-/

namespace ShiftReduce.Pattern

/-- Matches nothing at all. -/
def fail : Pattern := one .empty

/-- Whether a pattern can match no text but the empty one. -/
def isBlank : Pattern → Bool
  | empty | edge _ => true
  | literal _ | one _ => false
  | group _ body | repeated _ body _ _ => body.isBlank
  | seq a b | either a b => a.isBlank && b.isBlank

/-- The number of patterns in a pattern, itself included. -/
def size : Pattern → Nat
  | empty | literal _ | one _ | edge _ => 1
  | group _ body | repeated _ body _ _ => body.size + 1
  | seq a b | either a b => a.size + b.size + 1

/-! ## Sets -/

/-- Matches one character of a set. -/
def ofSet (set : CharSet) : Pattern :=
  match set.single? with
  | some c => literal [c]
  | none => one set

/-- The character that a pattern matches, if it is a text of one character. -/
def char? : Pattern → Option Char
  | literal [c] => some c
  | _ => none

/-- The set that a pattern takes a character from. -/
def set? : Pattern → Option CharSet
  | one set => some set
  | _ => none

/-- The text that a pattern matches. -/
def text? : Pattern → Option (List Char)
  | literal text => some text
  | _ => none

/-! ## Sequences -/

/-- The patterns that a pattern matches one after another. -/
def items : Pattern → List Pattern
  | empty => []
  | seq a b => a :: items b
  | pattern => [pattern]

/-- The patterns of a sequence. -/
def items? : Pattern → Option (List Pattern)
  | seq a b => some (items (seq a b))
  | _ => none

/-- Puts texts in a row together. -/
def joinTexts : List Pattern → List Pattern
  | [] => []
  | literal a :: rest =>
    match joinTexts rest with
    | literal b :: more => literal (a ++ b) :: more
    | more => literal a :: more
  | pattern :: rest => pattern :: joinTexts rest

/-- A sequence of patterns as it is. -/
def chain : List Pattern → Pattern
  | [] => empty
  | [pattern] => pattern
  | pattern :: rest => seq pattern (chain rest)

/-- Matches patterns one after another. -/
def sequence (patterns : List Pattern) : Pattern := chain (joinTexts (patterns.flatMap items))

/-! ## Alternatives -/

/-- The patterns of which a pattern matches one. -/
def branches : Pattern → List Pattern
  | either a b => a :: branches b
  | pattern => [pattern]

/-- An alternative of patterns as it is. -/
def choice : List Pattern → Pattern
  | [] => fail
  | [pattern] => pattern
  | pattern :: rest => either pattern (choice rest)

/-- What two lists begin with. -/
def commonFront : List Pattern → List Pattern → List Pattern
  | a :: as, b :: bs => if a = b then a :: commonFront as bs else []
  | _, _ => []

/-- The set of characters that one of some patterns takes. -/
def commonSet? (patterns : List Pattern) : Option CharSet :=
  match patterns.mapM char? with
  | some chars => some (chars.foldl (fun set c => .union set (.single c)) .empty)
  | none => (patterns.mapM set?).map fun sets => sets.foldl .union .empty

/-- Matches one of some patterns.  The fuel bounds how often a common front is
split off. -/
def alternativesWith : Nat → List Pattern → Pattern
  | 0, patterns => choice patterns
  | fuel + 1, patterns =>
    match patterns.flatMap branches with
    | [] => fail
    | [pattern] => pattern
    | first :: others =>
      match commonSet? (first :: others) with
      | some set => ofSet set
      | none =>
        match (first :: others).mapM items? with
        | some (front :: fronts) =>
          let common := fronts.foldl commonFront front
          if common.isEmpty then choice (first :: others)
          else
            let rests := (front :: fronts).map fun items => sequence (items.drop common.length)
            sequence (common ++ [alternativesWith fuel rests])
        | _ => choice (first :: others)

/-- Matches one of some patterns. -/
def alternatives (patterns : List Pattern) : Pattern :=
  alternativesWith (patterns.foldl (fun n pattern => n + pattern.size) 1) patterns

/-! ## Repetitions -/

/-- Matches a pattern a number of times. -/
def repetition (greedy : Bool) (body : Pattern) (least : Nat) (most : Option Nat) : Pattern :=
  let least := if body.isBlank then min least 1 else least
  let most := if body.isBlank then some (min (most.getD 1) 1) else most
  if most = some 0 then empty
  else if least = 1 ∧ most = some 1 then body
  else repeated greedy body least most

example : sequence [literal ['a'], sequence [literal ['b'], edge .textEnd], empty] =
    seq (literal ['a', 'b']) (edge .textEnd) := rfl

example : alternatives [literal ['c'], literal ['a'], literal ['b']] = one ⟨[⟨0x61, 0x63⟩]⟩ := by
  decide +kernel

/-- A common front is split off. -/
example :
    let a := repeated true (literal ['a']) 0 none
    alternatives [seq a (literal ['x']), seq a (literal ['y', 'z'])] =
      seq a (either (literal ['x']) (literal ['y', 'z'])) := by
  decide +kernel

example : repetition true (edge .textStart) 2 none = edge .textStart := rfl

end ShiftReduce.Pattern
