import ShiftReduce.TableFile.Error
import ShiftReduce.Text.Numeral
import ShiftReduce.Text.Split

/-!
# Lines of a table file

A line is read word by word.  Its first word, the *directive*, says what the
line declares, and the *fields* follow.

* `eof TERMINAL` declares the end-marker.
* `prod ID LHS -> SYMBOL…` declares a production.  All words to the end of the
  line are its right-hand side.
* `prod ID LHS LENGTH` declares a production of which only the length is known.
* `action STATE TERMINAL ACTION` declares an action, which is `sN`, `rN`, `acc`
  or `err` in any case.
* `goto STATE NONTERMINAL STATE` declares a goto.

A word that starts with `#` starts a comment.  Where a symbol is expected the
word is the symbol, whatever it starts with, so `#` can be a terminal.

The fields are looked at from the left, so the first one at fault is reported.
A contradiction to an earlier line comes after all fields, and before a word
that is left over.
-/

namespace ShiftReduce.TableFile

open ShiftReduce.Text

/-! ## Fields

A reader of a field takes the words that are left of a line, and gives back
what follows the field. -/

/-- Whether a word starts a comment. -/
def opensComment (word : String) : Bool := word.toList.head? == some '#'

/-- The next word, taken as a symbol. -/
def symbolField (field : Field) : List String → Except LineError (Symbol × List String)
  | [] => .error (.missingField field)
  | word :: rest => .ok (word, rest)

/-- The next word, unless a comment starts there. -/
def wordField (field : Field) : List String → Except LineError (String × List String)
  | [] => .error (.missingField field)
  | word :: rest =>
    if opensComment word then .error (.missingField field) else .ok (word, rest)

/-- A word as a 32-bit number. -/
def readNumber (word : String) : Except LineError UInt32 :=
  match Numeral.readUInt32 word.toList with
  | .ok number => .ok number
  | .error _ => .error (.invalidNumber word)

/-- The next word as a 32-bit number. -/
def numberField (field : Field) (words : List String) :
    Except LineError (UInt32 × List String) := do
  let (word, rest) ← wordField field words
  return (← readNumber word, rest)

/-- The action that a word in small letters stands for. -/
def actionOfLetters : List Char → Option Action
  | ['a', 'c', 'c'] | ['a', 'c', 'c', 'e', 'p', 't'] => some .accept
  | ['e', 'r', 'r'] | ['e', 'r', 'r', 'o', 'r'] => some .error
  | 's' :: digits => (Numeral.readUInt32 digits).toOption.map .shift
  | 'r' :: digits => (Numeral.readUInt32 digits).toOption.map .reduce
  | _ => none

/-- A word as an action.  The case of ASCII letters does not count. -/
def readAction (word : String) : Except LineError Action :=
  match actionOfLetters (word.toList.map Char.toLower) with
  | some action => .ok action
  | none => .error (.invalidAction word)

/-- The next word as an action. -/
def actionField (words : List String) : Except LineError (Action × List String) := do
  let (word, rest) ← wordField .action words
  return (← readAction word, rest)

/-- An arrow and all words that follow, or the next word as a length. -/
def rightHandSideField (words : List String) :
    Except LineError (RightHandSide × List String) := do
  let (word, rest) ← wordField .rightHandSide words
  if word = "->" then
    return (.symbols rest, [])
  else
    return (.length (← readNumber word).toNat, rest)

/-! ## Lines -/

/-- The declaration that a directive and the words after it make, and the words
that are left over. -/
def readDeclaration (directive : String) (words : List String) :
    Except LineError (Declaration × List String) := do
  match directive with
  | "eof" =>
    let (terminal, rest) ← symbolField .endMarker words
    return (.endMarker terminal, rest)
  | "prod" =>
    let (id, words) ← numberField .productionId words
    let (lhs, words) ← symbolField .leftHandSide words
    let (rhs, rest) ← rightHandSideField words
    return (.production id { lhs, rhs }, rest)
  | "action" =>
    let (state, words) ← numberField .state words
    let (terminal, words) ← symbolField .terminal words
    let (action, rest) ← actionField words
    return (.action state terminal action, rest)
  | "goto" =>
    let (state, words) ← numberField .state words
    let (nonTerminal, words) ← symbolField .nonTerminal words
    let (next, rest) ← numberField .gotoState words
    return (.goto state nonTerminal next, rest)
  | _ => throw (.unknownDirective directive)

/-- Refuses a word that is left over and starts no comment. -/
def endOfFields : List String → Except LineError Unit
  | [] => .ok ()
  | word :: _ => if opensComment word then .ok () else .error (.extraField word)

/-- The tables with the declaration of a line.  A line without words declares
nothing, and neither does one that starts with a comment. -/
def applyLine (tables : Tables) (line : String) : Except LineError Tables :=
  match words line with
  | [] => .ok tables
  | directive :: fields =>
    if opensComment directive then .ok tables
    else do
      let (declaration, rest) ← readDeclaration directive fields
      let extended ← (tables.declare declaration).mapError .table
      endOfFields rest
      return extended

example : (applyLine .empty "action 0 # s1   # shift `#`").map (·.action? 0 "#") =
    .ok (some (.shift 1)) := rfl

example : applyLine .empty "goto 0 A 2 3" = .error (.extraField "3") := rfl

example : applyLine .empty "action 0 a # s1" = .error (.missingField .action) := rfl

end ShiftReduce.TableFile
