import ShiftReduce.Pattern.Fault
import ShiftReduce.Text.Blank

/-!
# Reading a pattern

A written pattern is read from the left.  The *place* of a reader is what is
unread, the number of characters that are read, and what was met on the way:
the groups, and whether blanks are skipped.
-/

namespace ShiftReduce.Pattern

/-- How far a written pattern is read. -/
structure Place where
  rest : List Char
  position : Nat := 0
  /-- Whether blanks and comments are skipped. -/
  spaced : Bool := false
  groups : Nat := 0
  names : List (List Char × Span) := []
deriving DecidableEq, Repr

namespace Place

/-- The place a number of characters further on. -/
def drop (place : Place) (n : Nat) : Place :=
  { place with
    rest := place.rest.drop n
    position := place.position + (place.rest.take n).length }

/-- The number of characters of the blanks and comments in front.  A comment goes
from `#` to the end of its line. -/
def blankLength (inComment : Bool) : List Char → Nat
  | [] => 0
  | c :: rest =>
    if inComment then 1 + blankLength (c != '\n') rest
    else if Text.isBlank c then 1 + blankLength false rest
    else if c = '#' then 1 + blankLength true rest
    else 0

/-- The place behind blanks and comments, if they are skipped. -/
def skipBlanks (place : Place) : Place :=
  if place.spaced then place.drop (blankLength false place.rest) else place

/-- The character behind the next one.  If blanks are skipped it is the one behind
the blanks there.  A `#` among them is passed over, but not the rest of its comment. -/
def second? (place : Place) : Option Char :=
  let rest := place.rest.tail
  if place.spaced then
    let solid :=
      match rest.dropWhile Text.isBlank with
      | '#' :: more => more.dropWhile Text.isBlank
      | more => more
    solid.head?.or rest.head?
  else rest.head?

end Place

/-- A reader of part of a pattern. -/
abbrev Reading := StateT Place (Except Fault)

/-- How much is read. -/
def here : Reading Nat := return (← get).position

/-- The next character. -/
def next? : Reading (Option Char) := return (← get).rest.head?

/-- The part from a position up to here. -/
def spanFrom (start : Nat) : Reading Span := return ⟨start, ← here⟩

/-- Reads on, past a number of characters. -/
def skip (n : Nat) : Reading Unit := modify fun place => place.drop n

/-- Reads on, past blanks and comments if they are skipped. -/
def skipBlanks : Reading Unit := modify Place.skipBlanks

/-- Reads a character, and the blanks and comments behind it if they are skipped. -/
def skipSpaced : Reading Unit := modify fun place => (place.drop 1).skipBlanks

/-- Reads the first of some texts that comes next. -/
def skipAny (fronts : List String) : Reading Bool := do
  let rest := (← get).rest
  match fronts.find? fun front => front.toList.isPrefixOf rest with
  | some front => skip front.length; return true
  | none => return false

/-- Reads the characters that pass a test, each with the blanks behind it.  The fuel
bounds their number. -/
def readWhile (test : Char → Bool) : Nat → Reading (List Char)
  | 0 => return []
  | n + 1 => do
    match ← next? with
    | some c =>
      if test c then
        skipSpaced
        return c :: (← readWhile test n)
      else return []
    | none => return []

/-- Reads the characters in front that pass a test, each with the blanks behind it. -/
def takeWhile (test : Char → Bool) : Reading (List Char) := do
  readWhile test (← get).rest.length

/-- Stops at a part that is at fault. -/
def refuse {α : Type} (cause : Cause) (span : Span) : Reading α := throw { cause, span }

/-- Stops if nothing is left to read. -/
def expectMore (cause : Cause) (start : Nat) : Reading Unit := do
  if (← next?).isNone then refuse cause (← spanFrom start)

example : (({ rest := " #\n x".toList, spaced := true } : Place).skipBlanks).rest = ['x'] := rfl

example : ({ rest := "-#]\n z".toList, spaced := true } : Place).second? = some ']' := rfl

end ShiftReduce.Pattern
