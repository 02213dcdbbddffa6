import ShiftReduce.Pattern.Escape

/-!
# Classes of characters

A *class* stands in brackets.  Its members are characters, ranges, named sets
such as `[:digit:]` and other classes.  A caret in front takes the complement.
Between members `&&` takes what both sides have, `--` what only the left side
has and `~~` what exactly one side has, from the left to the right.

Hyphens in front are members, and so is a closing bracket in front.
-/

namespace ShiftReduce.Pattern

/-- A class that is not closed yet. -/
structure OpenClass where
  opening : Span
  negated : Bool
  /-- What stands in front of the last operator, and that operator. -/
  left? : Option (ClassTree × ClassOperator) := none
  /-- Where the members behind the last operator start. -/
  start : Nat
  /-- The members behind the last operator, latest first. -/
  members : List ClassTree := []

namespace OpenClass

/-- The class with one more member. -/
def push (cls : OpenClass) (member : ClassTree) : OpenClass :=
  { cls with members := member :: cls.members }

/-- The members behind the last operator. -/
def right (cls : OpenClass) : ClassTree :=
  match cls.members with
  | [] => .empty ⟨cls.start, cls.start⟩
  | [member] => member
  | last :: _ =>
    let items := cls.members.reverse
    let first := items.head?.getD last
    .union items ⟨first.span.start, last.span.stop⟩

/-- All members. -/
def body (cls : OpenClass) : ClassTree :=
  match cls.left? with
  | none => cls.right
  | some (left, operator) => .binary operator left cls.right

/-- The class with an operator behind its members, at whose end the next ones start. -/
def operator (cls : OpenClass) (operator : ClassOperator) (start : Nat) : OpenClass :=
  { cls with left? := some (cls.body, operator), start, members := [] }

end OpenClass

/-- The named set whose name comes next, behind its opening bracket, and the number of
characters from there.  A caret in front of the name takes the complement. -/
def namedSet? : List Char → Option (Bool × CharSet × Nat)
  | ':' :: text =>
    let negated := text.head? == some '^'
    let rest := if negated then text.tail else text
    let name := rest.takeWhile (· != ':')
    if [':', ']'].isPrefixOf (rest.drop name.length) then
      (CharSet.named? (String.ofList name)).map fun set =>
        (negated, set, text.length - rest.length + name.length + 3)
    else none
  | _ => none

/-- Reads a character that is a member by its place. -/
def readPlain (c : Char) : Reading ClassTree := do
  let span := Span.single (← here)
  skipSpaced
  return .char ⟨c, false, span⟩

/-- Reads the hyphens in front of the members.  The fuel bounds their number. -/
def readHyphens : Nat → Reading (List ClassTree)
  | 0 => return []
  | n + 1 => do
    if (← next?) == some '-' then return (← readPlain '-') :: (← readHyphens n)
    else return []

/-- Reads the opening part of a class. -/
def readClassOpening : Reading OpenClass := do
  let start ← here
  skipSpaced
  expectMore .unclosedClass start
  let negated := (← next?) == some '^'
  if negated then
    skipSpaced
    expectMore .unclosedClass start
  let front ← here
  let hyphens ← readHyphens (← get).rest.length
  if (← next?).isNone then refuse .unclosedClass ⟨start, start⟩
  let bracket ←
    if hyphens.isEmpty && (← next?) == some ']' then pure [← readPlain ']'] else pure []
  expectMore .unclosedClass start
  return { opening := ← spanFrom start, negated, start := front,
           members := (hyphens ++ bracket).reverse }

/-- Reads a character or an escape. -/
def readMember (opening : Span) : Reading Tree := do
  let start ← here
  match ← next? with
  | none => refuse .unclosedClass opening
  | some '\\' => readEscape
  | some c => skip 1; return .char ⟨c, false, .single start⟩

/-- The character that an end of a range stands for. -/
def rangeEnd : Tree → Reading Letter
  | .char letter => return letter
  | tree => refuse .rangeOfClass tree.span

/-- Reads a member or a range of them. -/
def readMembers (opening : Span) : Reading ClassTree := do
  let first ← readMember opening
  skipBlanks
  if (← next?).isNone then refuse .unclosedClass opening
  let second := (← get).second?
  if (← next?) == some '-' && second != some ']' && second != some '-' then
    skipSpaced
    let last ← readMember opening
    let a ← rangeEnd first
    let b ← rangeEnd last
    if b.char < a.char then refuse .rangeReversed ⟨first.span.start, last.span.stop⟩
    return .range a b
  else
    match first with
    | .char letter => return .char letter
    | .cls tree => return tree
    | tree => refuse .edgeInClass tree.span

/-- Reads on in a class up to its closing bracket.  The fuel bounds the number of
members and brackets. -/
def readClassFrom : Nat → OpenClass → Reading ClassTree
  | 0, cls => return cls.body
  | fuel + 1, cls => do
    skipBlanks
    let start ← here
    match (← get).rest with
    | [] => refuse .unclosedClass cls.opening
    | ']' :: _ =>
      skip 1
      return .bracket cls.negated cls.body (← spanFrom cls.opening.start)
    | '[' :: rest =>
      match namedSet? rest with
      | some (negated, set, length) =>
        skip (length + 1)
        readClassFrom fuel (cls.push (.named negated set (← spanFrom start)))
      | none =>
        let inner ← readClassFrom fuel (← readClassOpening)
        readClassFrom fuel (cls.push inner)
    | '&' :: '&' :: _ => skip 2; readClassFrom fuel (cls.operator .inter (start + 2))
    | '-' :: '-' :: _ => skip 2; readClassFrom fuel (cls.operator .diff (start + 2))
    | '~' :: '~' :: _ => skip 2; readClassFrom fuel (cls.operator .symmDiff (start + 2))
    | _ => readClassFrom fuel (cls.push (← readMembers cls.opening))

/-- Reads a class, from its opening bracket on. -/
def readClass : Reading ClassTree := do
  let length := (← get).rest.length
  readClassFrom length (← readClassOpening)

example : namedSet? ":^digit:]x".toList = some (true, .digit, 9) := by decide +kernel

end ShiftReduce.Pattern
