import ShiftReduce.Pattern.Reading
import ShiftReduce.Pattern.Syntax

/-!
# Escapes

An *escape* is a backslash and what follows it.  It stands for a character, for
a class of characters or for an edge.

A character is escaped by itself, by a letter such as `n`, or by the
hexadecimal digits of its number: two after `x`, four after `u`, eight after
`U`, and any number of them in braces.
-/

namespace ShiftReduce.Pattern

/-- The character that a letter stands for in an escape. -/
def letterEscape? : Char → Option Char
  | 'a' => some '\u0007'
  | 't' => some '\t'
  | 'n' => some '\n'
  | 'v' => some '\u000B'
  | 'f' => some '\u000C'
  | 'r' => some '\r'
  | _ => none

/-- Whether a character can be escaped by itself: the ASCII ones but letters,
digits and angle brackets. -/
def isEscapable (c : Char) : Bool := decide (c ≤ '\u007F') && !c.isAlphanum && c != '<' && c != '>'

/-! ## Numbers -/

/-- The value of a hexadecimal digit. -/
def hexDigit? (c : Char) : Option Nat :=
  if c.isDigit then some (c.toNat - '0'.toNat)
  else if 'a' ≤ c.toLower ∧ c.toLower ≤ 'f' then some (c.toLower.toNat - 'a'.toNat + 10)
  else none

/-- The character whose number has some hexadecimal digits. -/
def charOfDigits? (digits : List Nat) : Option Char :=
  let n := digits.foldl (fun value digit => 16 * value + digit) 0
  if n.isValidChar then some (Char.ofNat n) else none

/-- Reads a hexadecimal digit. -/
def readDigit : Reading Nat := do
  match ← next? with
  | none => refuse .incompleteEscape (← spanFrom (← here))
  | some c =>
    match hexDigit? c with
    | none => refuse .invalidHexDigit (.single (← here))
    | some digit => skipSpaced; return digit

/-- Reads a character whose number has a fixed number of digits. -/
def readFixed (digits : Nat) : Reading Char := do
  let start ← here
  let values ← (List.replicate digits ()).mapM fun _ => readDigit
  match charOfDigits? values with
  | some c => return c
  | none => refuse .invalidHex (← spanFrom start)

/-- Reads a character whose number is in braces, from the opening one on. -/
def readBraced : Reading Char := do
  let brace ← here
  skipSpaced
  let digits ← takeWhile fun c => (hexDigit? c).isSome
  match ← next? with
  | none => refuse .incompleteEscape (← spanFrom brace)
  | some '}' =>
    let digitSpan ← spanFrom (brace + 1)
    skipSpaced
    if digits.isEmpty then refuse .emptyHex (← spanFrom brace)
    match charOfDigits? (digits.filterMap hexDigit?) with
    | some c => return c
    | none => refuse .invalidHex digitSpan
  | some _ => refuse .invalidHexDigit (.single (← here))

/-- Reads an escaped character by its number, from the letter on. -/
def readNumber (start : Nat) (letter : Char) : Reading Tree := do
  skipSpaced
  if (← next?) == some '{' then
    let char ← readBraced
    return .char ⟨char, false, ← spanFrom start⟩
  else
    let char ← readFixed (if letter = 'x' then 2 else if letter = 'u' then 4 else 8)
    return .char ⟨char, letter == 'x', ← spanFrom start⟩

/-! ## Properties -/

/-- The name of a property without what does not count in it: case, blanks, hyphens,
low lines, characters beyond ASCII and the word `is` in front. -/
def plainName (name : List Char) : String :=
  let rest := if (name.take 2).map Char.toLower = ['i', 's'] then name.drop 2 else name
  String.ofList ((rest.filter fun c =>
    decide (c ≤ '\u007F') && c != ' ' && c != '_' && c != '-').map Char.toLower)

/-- Why a property is not known.  Three names are taken for values of the general
category, and they are looked up in another place. -/
def propertyCause (name : List Char) : Cause :=
  if name.all (fun c => c != '=' && c != ':') && ["cf", "sc", "lc"].contains (plainName name) then
    .unknownPropertyValue
  else .unknownProperty

/-- Reads a property of characters, from the letter on.  Its name is one character or
stands in braces. -/
def readProperty (start : Nat) : Reading Tree := do
  skipSpaced
  match ← next? with
  | none => refuse .incompleteEscape (← spanFrom (← here))
  | some '{' =>
    skipSpaced
    let name ← takeWhile (· != '}')
    expectMore .incompleteEscape (← here)
    skip 1
    return .cls (.property (propertyCause name) (← spanFrom start))
  | some '\\' => refuse .invalidProperty (.single (← here))
  | some _ =>
    skipSpaced
    return .cls (.property .unknownProperty (← spanFrom start))

/-! ## Edges -/

/-- The edge of a word with a name. -/
def wordEdge? : String → Option WordEdge
  | "start" => some .start
  | "end" => some .stop
  | "start-half" => some .startHalf
  | "end-half" => some .stopHalf
  | _ => none

/-- Reads the name of an edge of a word in braces, if one comes next.  What does not
begin like a name is left for a repetition. -/
def readWordEdge (start : Nat) : Reading WordEdge := do
  let place ← get
  let brace ← here
  if (← next?) != some '{' then return .either
  skipSpaced
  expectMore .unclosedEdgeOrCount start
  let nameStart ← here
  let name ← takeWhile fun c => c.isAlpha || c == '-'
  if name.isEmpty then
    set place
    return .either
  if (← next?) != some '}' then refuse .unclosedEdge (← spanFrom brace)
  let nameSpan ← spanFrom nameStart
  skip 1
  match wordEdge? (String.ofList name) with
  | some kind => return kind
  | none => refuse .unknownEdge nameSpan

/-! ## Escapes -/

/-- Reads an escape, from the backslash on. -/
def readEscape : Reading Tree := do
  let start ← here
  skip 1
  expectMore .incompleteEscape start
  let c := (← next?).getD '\\'
  if c.isDigit then refuse .backreference ⟨start, (← here) + 1⟩
  else if c == 'x' || c == 'u' || c == 'U' then readNumber start c
  else if c == 'p' || c == 'P' then readProperty start
  else
    skip 1
    let span ← spanFrom start
    match c with
    | 'd' => return .cls (.shorthand false .digit span)
    | 'D' => return .cls (.shorthand true .digit span)
    | 's' => return .cls (.shorthand false .space span)
    | 'S' => return .cls (.shorthand true .space span)
    | 'w' => return .cls (.shorthand false .word span)
    | 'W' => return .cls (.shorthand true .word span)
    | 'A' => return .edge .textStart span
    | 'z' => return .edge .textEnd span
    | 'b' =>
      let kind ← readWordEdge start
      return .edge (.word kind) (← spanFrom start)
    | 'B' => return .edge (.word .neither) span
    | '<' => return .edge (.word .start) span
    | '>' => return .edge (.word .stop) span
    | c =>
      if isEscapable c then return .char ⟨c, false, span⟩
      else
        match letterEscape? c with
        | some char => return .char ⟨char, false, span⟩
        | none => refuse .unknownEscape span

example : readEscape.run' { rest := "\\u00e9".toList } = .ok (.char ⟨'é', false, ⟨0, 6⟩⟩) := rfl

example : propertyCause "isC f".toList = .unknownPropertyValue := by decide +kernel

end ShiftReduce.Pattern
