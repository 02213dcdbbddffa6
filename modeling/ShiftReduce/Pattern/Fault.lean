/-!
# Faults of written patterns

A written pattern is refused for the first fault from the left.  Only if all of
it can be read are its parts looked at that are nested too deep, and only then
those that have no meaning.

Some parts have no meaning since nothing is known of a character but its number:
the letters and digits of all scripts, the two cases of a letter, and the
properties of characters.

The report of a fault shows the pattern, and below it the parts at fault.  A
pattern of many lines is shown with their numbers, and a part that goes over
many lines is named by where it starts and ends.
-/

namespace ShiftReduce.Pattern

/-- A part of a written pattern: the characters from one position up to another. -/
structure Span where
  start : Nat
  stop : Nat
deriving DecidableEq, Repr

/-- The part that is one character. -/
def Span.single (position : Nat) : Span := ⟨position, position + 1⟩

/-- What is wrong with a written pattern. -/
inductive Cause where
  | unclosedGroup
  | unopenedGroup
  | nothingToRepeat
  | unclosedCount
  | emptyCount
  | countTooLarge
  | countsReversed
  | unclosedClass
  | rangeReversed
  /-- An end of a range is not a character. -/
  | rangeOfClass
  /-- An escape stands for no character, but it is in a class. -/
  | edgeInClass
  | incompleteEscape
  | unknownEscape
  | backreference
  | invalidHexDigit
  | emptyHex
  /-- The hexadecimal digits are the number of no character. -/
  | invalidHex
  /-- The name of a property of characters is an escape. -/
  | invalidProperty
  | unclosedEdge
  | unknownEdge
  /-- The pattern ends behind a brace that opens the name of an edge or a count. -/
  | unclosedEdgeOrCount
  /-- A group looks ahead or behind. -/
  | lookAround
  | emptyName
  | invalidName
  | unclosedName
  | duplicateName
  | unknownFlag
  | duplicateFlag
  | repeatedNegation
  /-- No flag follows the negation. -/
  | danglingNegation
  | unclosedFlags
  | nestedTooDeep (limit : Nat)
  | unknownClass
  | unknownProperty
  | unknownPropertyValue
  | unknownCase
  /-- A part is for all scripts where only bytes are meant. -/
  | notBytes
  /-- A part would match bytes that are no text. -/
  | notText
deriving DecidableEq, Repr

/-- What is wrong, in words. -/
def Cause.message : Cause → String
  | unclosedGroup => "unclosed group"
  | unopenedGroup => "unopened group"
  | nothingToRepeat => "repetition operator missing expression"
  | unclosedCount => "unclosed counted repetition"
  | emptyCount => "repetition quantifier expects a valid decimal"
  | countTooLarge => "decimal literal invalid"
  | countsReversed => "invalid repetition count range, the start must be <= the end"
  | unclosedClass => "unclosed character class"
  | rangeReversed => "invalid character class range, the start must be <= the end"
  | rangeOfClass => "invalid range boundary, must be a literal"
  | edgeInClass => "invalid escape sequence found in character class"
  | incompleteEscape => "incomplete escape sequence, reached end of pattern prematurely"
  | unknownEscape => "unrecognized escape sequence"
  | backreference => "backreferences are not supported"
  | invalidHexDigit => "invalid hexadecimal digit"
  | emptyHex => "hexadecimal literal empty"
  | invalidHex => "hexadecimal literal is not a Unicode scalar value"
  | invalidProperty => "invalid Unicode character class"
  | unclosedEdge =>
    "special word boundary assertion is either unclosed or contains an invalid character"
  | unknownEdge =>
    "unrecognized special word boundary assertion, " ++
      "valid choices are: start, end, start-half or end-half"
  | unclosedEdgeOrCount =>
    "found either the beginning of a special word boundary or a bounded repetition " ++
      "on a \\b with an opening brace, but no closing brace"
  | lookAround => "look-around, including look-ahead and look-behind, is not supported"
  | emptyName => "empty capture group name"
  | invalidName => "invalid capture group character"
  | unclosedName => "unclosed capture group name"
  | duplicateName => "duplicate capture group name"
  | unknownFlag => "unrecognized flag"
  | duplicateFlag => "duplicate flag"
  | repeatedNegation => "flag negation operator repeated"
  | danglingNegation => "dangling flag negation operator"
  | unclosedFlags => "expected flag but got end of regex"
  | nestedTooDeep limit =>
    s!"exceed the maximum number of nested parentheses/brackets ({limit})"
  | unknownClass =>
    "Unicode-aware Perl class not found (make sure the unicode-perl feature is enabled)"
  | unknownProperty => "Unicode property not found"
  | unknownPropertyValue => "Unicode property value not found"
  | unknownCase =>
    "Unicode-aware case insensitivity matching is not available " ++
      "(make sure the unicode-case feature is enabled)"
  | notBytes => "Unicode not allowed here"
  | notText => "pattern can match invalid UTF-8"

/-- What is wrong with a part of a written pattern. -/
structure Fault where
  cause : Cause
  span : Span
  earlier : Option Span := none
deriving DecidableEq, Repr

/-! ## Reports -/

/-- The lines of a written pattern.  A carriage return before a line feed is left out,
and so is an empty last line. -/
def linesOf (pattern : List Char) : List (List Char) :=
  let pieces := pattern.splitOn '\n'
  let ended := pieces.dropLast.map fun line =>
    if line.getLast? = some '\r' then line.dropLast else line
  ended ++ (pieces.getLast?.filter fun line => !line.isEmpty).toList

/-- The number of the line of a position, from one on. -/
def lineAt (pattern : List Char) (position : Nat) : Nat :=
  (pattern.take position).count '\n' + 1

/-- The number of characters before a position in its line. -/
def columnAt (pattern : List Char) (position : Nat) : Nat :=
  ((pattern.take position).reverse.takeWhile (· != '\n')).length

/-- Carets below parts of a line, from a column on.  A part without characters has
one too. -/
def underline (column : Nat) : List Span → List Char
  | [] => []
  | span :: rest =>
    let width := max 1 (span.stop - span.start)
    List.replicate (span.start - column) ' ' ++ List.replicate width '^' ++
      underline (max column span.start + width) rest

/-- The line of a part, and the part within it. -/
def inLine (pattern : List Char) (span : Span) : Nat × Span :=
  (lineAt pattern span.start, ⟨columnAt pattern span.start, columnAt pattern span.stop⟩)

/-- A line with its number, and carets below its parts that are at fault.  Without a
width there are no numbers. -/
def showLine (width : Nat) (placed : List (Nat × Span)) (number : Nat) (line : List Char) :
    List String :=
  let digits := (toString number).toList
  let margin :=
    if width = 0 then "    "
    else String.ofList (List.replicate (width - digits.length) ' ' ++ digits) ++ ": "
  let spans := (placed.filter fun entry => entry.1 == number).map Prod.snd
  let carets := String.ofList (List.replicate margin.length ' ' ++ underline 0 spans)
  (margin ++ String.ofList line) :: if spans.isEmpty then [] else [carets]

/-- Where a part over many lines starts and ends. -/
def showLong (pattern : List Char) (span : Span) : String :=
  let lines := (lineAt pattern span.start, lineAt pattern span.stop)
  let columns := (columnAt pattern span.start + 1, columnAt pattern span.stop)
  s!"on line {lines.1} (column {columns.1}) through line {lines.2} (column {columns.2})"

/-- A fault in words, below the pattern. -/
def Fault.report (fault : Fault) (text : String) : String :=
  let pattern := text.toList
  let lines := linesOf pattern
  let count := lines.length + if pattern.getLast? = some '\n' then 1 else 0
  let width := if count ≤ 1 then 0 else (toString count).length
  let (short, long) := (fault.earlier.toList ++ [fault.span]).partition fun span =>
    lineAt pattern span.start == lineAt pattern span.stop
  let placed := short.map (inLine pattern)
  let shown := (lines.zipIdx 1).flatMap fun entry => showLine width placed entry.2 entry.1
  let ruler := if pattern.contains '\n' then [String.ofList (List.replicate 79 '~')] else []
  "\n".intercalate
    (["regex parse error:"] ++ ruler ++ shown ++ ruler ++ long.map (showLong pattern) ++
      ["error: " ++ fault.cause.message])

/-- Why a written pattern was refused. -/
inductive Refusal where
  | fault (fault : Fault)
  | tooLarge (limit : Nat)
  | unknownWords
deriving DecidableEq, Repr

/-- The reason in words. -/
def Refusal.report (pattern : String) : Refusal → String
  | fault f => f.report pattern
  | tooLarge limit => s!"Compiled regex exceeds size limit of {limit} bytes."
  | unknownWords => "error building NFA"

example : String.ofList (underline 0 [⟨2, 3⟩, ⟨4, 4⟩]) = "  ^ ^" := by decide

example : linesOf "a\r\n\nb".toList = [['a'], [], ['b']] := by decide

end ShiftReduce.Pattern
