import ShiftReduce.Pattern.Reading
import ShiftReduce.Pattern.Syntax
import ShiftReduce.Text.Alphabetic

/-!
# Groups

A *group* stands in parentheses.  It may begin with a name, as in `(?P<name>…)`
or `(?<name>…)`, or with flags, as in `(?x:…)`.  The parentheses `(?x)` hold
flags alone: they set them for the rest of the group that they are in.

Groups are numbered by their opening parentheses, but for those with flags.
-/

namespace ShiftReduce.Pattern

/-! ## Flags -/

/-- The character that a mark is made of. -/
def FlagMark.span (mark : FlagMark) : Span := .single mark.position

/-- The marks up to a colon or a closing parenthesis, from those in front of them,
which stand latest first. -/
def flagMarks (position : Nat) (earlier : List FlagMark) :
    List Char → Except Fault (List FlagMark)
  | [] => .error { cause := .unclosedFlags, span := ⟨position, position⟩ }
  | c :: rest =>
    let mark : FlagMark := ⟨c, position⟩
    if c = ':' ∨ c = ')' then
      match earlier with
      | ⟨'-', p⟩ :: _ => .error { cause := .danglingNegation, span := .single p }
      | _ => .ok earlier.reverse
    else if !"imsUuRx-".toList.contains c then
      .error { cause := .unknownFlag, span := mark.span }
    else
      match earlier.find? fun other => other.char = c with
      | none => flagMarks (position + 1) (mark :: earlier) rest
      | some other =>
        let cause := if c = '-' then .repeatedNegation else .duplicateFlag
        .error { cause, span := mark.span, earlier := some other.span }

/-! ## Names -/

/-- Whether a character can stand in a name, at its front or behind it. -/
def inName (atFront : Bool) (c : Char) : Bool :=
  c == '_' || Text.isAlphabetic c ||
    !atFront && (Text.isNumeric c || c == '.' || c == '[' || c == ']')

/-- Reads the name of a group, up to the closing angle bracket. -/
def readName : Reading Unit := do
  let start ← here
  let name := (← get).rest.takeWhile (· != '>')
  match name.zipIdx.find? fun entry => !inName (entry.2 == 0) entry.1 with
  | some (_, i) => refuse .invalidName (.single (start + i))
  | none =>
    skip name.length
    expectMore .unclosedName (← here)
    let span ← spanFrom start
    skip 1
    if name.isEmpty then refuse .emptyName span
    let names := (← get).names
    match names.find? fun entry => entry.1 = name with
    | some entry => throw { cause := .duplicateName, span, earlier := some entry.2 }
    | none => modify fun place => { place with names := (name, span) :: names }

/-! ## Openings -/

/-- Gives a group the next number. -/
def nextNumber : Reading Opening := do
  let number := (← get).groups + 1
  modify fun place => { place with groups := number }
  return .numbered number

/-- Reads what opens a group, from its parenthesis on, and says whether it does open
one: flags alone do not. -/
def readOpening : Reading (Bool × Opening) := do
  let start ← here
  skip 1
  skipBlanks
  let question ← here
  if ← skipAny ["?=", "?!", "?<=", "?<!"] then refuse .lookAround (← spanFrom start)
  else if ← skipAny ["?P<", "?<"] then
    let opening ← nextNumber
    readName
    return (true, opening)
  else if ← skipAny ["?"] then
    let place ← get
    if place.rest.isEmpty then refuse .unclosedGroup (.single start)
    let marks ← liftM (flagMarks place.position [] place.rest)
    skip marks.length
    let alone := (← next?) == some ')'
    skip 1
    if alone && marks.isEmpty then refuse .nothingToRepeat ⟨question, question⟩
    modify fun place => { place with spaced := flagValue marks 'x' place.spaced }
    return (!alone, .flagged marks)
  else return (true, ← nextNumber)

example : flagMarks 2 [] "i-x)".toList = .ok [⟨'i', 2⟩, ⟨'-', 3⟩, ⟨'x', 4⟩] := rfl

end ShiftReduce.Pattern
