import ShiftReduce.Pattern.Class
import ShiftReduce.Pattern.Group
import ShiftReduce.Text.Numeral

/-!
# From text to trees

A pattern is written as alternatives with `|` between them.  Each is a sequence
of items: a character, an escape, a class, a group, `.` for any character, and
`^` and `$` for the ends of the text.  An item may be repeated: `?`, `*`, `+`, or
counts in braces, as in `x{2}`, `x{2,}` and `x{2,5}`.  A `?` behind a repetition
prefers the shorter match.

`Tree.read` reads a tree.
-/

namespace ShiftReduce.Pattern

/-! ## Repetitions -/

/-- How often an item is repeated. -/
structure Counts where
  least : Nat
  most : Option Nat
  greedy : Bool := true
deriving DecidableEq, Repr

/-- Reads blanks, and the comments behind them if they are skipped. -/
def skipAllBlanks : Reading Unit := do
  let blanks := ((← get).rest.takeWhile Text.isBlank).length
  skip blanks
  if 0 < blanks then skipBlanks

/-- Reads a count, and the blanks around it.  What is wrong with it may not matter
in the end, so it is handed on. -/
def readCount : Reading (Except Fault Nat) := do
  skip ((← get).rest.takeWhile Text.isBlank).length
  let start ← here
  let digits ← takeWhile Char.isDigit
  let span ← spanFrom start
  skipAllBlanks
  match Numeral.read UInt32.size digits with
  | .ok n => return .ok n
  | .error .empty => return .error { cause := .emptyCount, span }
  | .error _ => return .error { cause := .countTooLarge, span }

/-- Reads a question mark if one comes next, and says whether there was none. -/
def readGreed : Reading Bool := return !(← skipAny ["?"])

/-- Reads the counts of a repetition, from the opening brace on. -/
def readCounts : Reading Counts := do
  let start ← here
  skipSpaced
  expectMore .unclosedCount start
  let first ← readCount
  expectMore .unclosedCount start
  let (least, most) ←
    if (← next?) == some ',' then do
      skipSpaced
      expectMore .unclosedCount start
      if (← next?) == some '}' then pure (← liftM first, none)
      else
        let least ← liftM first
        let most ← liftM (← readCount)
        pure (least, some most)
    else do
      let n ← liftM first
      pure (n, some n)
  if (← next?) != some '}' then refuse .unclosedCount (← spanFrom start)
  skipSpaced
  let greedy ← readGreed
  if most.any fun n => decide (n < least) then refuse .countsReversed (← spanFrom start)
  return { least, most, greedy }

/-- Reads a repetition of one character, and says what it means. -/
def readMark (least : Nat) (most : Option Nat) : Reading Counts := do
  skip 1
  return { least, most, greedy := ← readGreed }

/-- How the repetition is read that begins with a character. -/
def repetition? : Char → Option (Reading Counts)
  | '?' => some (readMark 0 (some 1))
  | '*' => some (readMark 0 none)
  | '+' => some (readMark 1 none)
  | '{' => some readCounts
  | _ => none

/-! ## Items -/

/-- Reads an item that is no group and no repetition, from its first character on. -/
def readItem (first : Char) : Reading Tree := do
  let span := Span.single (← here)
  match first with
  | '[' => return .cls (← readClass)
  | '\\' => readEscape
  | '.' => skip 1; return .dot span
  | '^' => skip 1; return .edge .circumflex span
  | '$' => skip 1; return .edge .dollar span
  | c => skip 1; return .char ⟨c, false, span⟩

/-- What is read of a group that is not closed yet. -/
structure Draft where
  start : Nat
  /-- The alternatives that are complete, latest first. -/
  complete : List Tree := []
  lastStart : Nat
  /-- The items of the last alternative, latest first. -/
  items : List Tree := []

namespace Draft

/-- A draft of a group whose contents start at a position. -/
def startingAt (start : Nat) : Draft := { start, lastStart := start }

/-- The draft with one more item. -/
def push (draft : Draft) (item : Tree) : Draft := { draft with items := item :: draft.items }

/-- The last alternative, which ends at a position. -/
def last (draft : Draft) (stop : Nat) : Tree :=
  match draft.items with
  | [] => .empty
  | [item] => item
  | items => .sequence items.reverse ⟨draft.lastStart, stop⟩

/-- The draft when a bar at a position has ended its last alternative. -/
def bar (draft : Draft) (position : Nat) : Draft :=
  { start := draft.start, complete := draft.last position :: draft.complete,
    lastStart := position + 1 }

/-- The contents of the group, which end at a position. -/
def close (draft : Draft) (stop : Nat) : Tree :=
  match draft.complete with
  | [] => draft.last stop
  | complete => .choice (complete.reverse ++ [draft.last stop]) ⟨draft.start, stop⟩

end Draft

/-! ## Trees -/

/-- Reads on in a group up to its closing parenthesis, or to the end where there is
no group.  The fuel bounds the number of items and groups. -/
def readFrom (group : Option Nat) : Nat → Draft → Reading Tree
  | 0, draft => return draft.close (← here)
  | fuel + 1, draft => do
    skipBlanks
    let start ← here
    match ← next? with
    | none =>
      match group with
      | none => return draft.close start
      | some opening => refuse .unclosedGroup (.single opening)
    | some ')' =>
      match group with
      | none => refuse .unopenedGroup (.single start)
      | some _ => skip 1; return draft.close start
    | some '|' => skip 1; readFrom group fuel (draft.bar start)
    | some '(' =>
      let spaced := (← get).spaced
      match ← readOpening with
      | (true, opening) =>
        let body ← readFrom (some start) fuel (.startingAt (← here))
        modify fun place => { place with spaced }
        readFrom group fuel (draft.push (.group opening body (← spanFrom start)))
      | (false, .flagged marks) => readFrom group fuel (draft.push (.flags marks))
      | (false, .numbered _) => readFrom group fuel draft
    | some first =>
      match repetition? first with
      | none => readFrom group fuel (draft.push (← readItem first))
      | some reading =>
        match draft.items with
        | [] | .flags _ :: _ => refuse .nothingToRepeat ⟨start, start⟩
        | body :: items =>
          let counts ← reading
          let span ← spanFrom body.span.start
          readFrom group fuel { draft with
            items := .repeated counts.greedy body counts.least counts.most span :: items }

/-- Reads a tree. -/
def Tree.read (text : String) : Except Fault Tree :=
  (readFrom none (text.length + 1) (.startingAt 0)).run' { rest := text.toList }

example : Tree.read "a|b*?" = .ok (.choice
    [.char ⟨'a', false, ⟨0, 1⟩⟩,
      .repeated false (.char ⟨'b', false, ⟨2, 3⟩⟩) 0 none ⟨2, 5⟩] ⟨0, 5⟩) := rfl

end ShiftReduce.Pattern
