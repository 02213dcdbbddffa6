import ShiftReduce.Pattern.Syntax

/-!
# What classes mean

A class stands for a set of characters, if the flags in force where it stands
allow it.  Where characters of all scripts are meant, nothing is known of their
cases and properties.  Where bytes are meant, the set must hold ASCII characters
only, so that it matches no part of a character.

Whether a set is the same in both cases can be known even where cases are not:
the set without characters is, and so is the one with all of them.
-/

namespace ShiftReduce.Pattern

/-- The flags in force at a part of a pattern. -/
structure Flags where
  caseless : Bool := false
  /-- Whether the circumflex and the dollar sign stand for the edges of lines. -/
  lines : Bool := false
  /-- Whether the dot stands for line feeds too. -/
  dotAll : Bool := false
  lazy : Bool := false
  /-- Whether characters of all scripts are meant, and not bytes. -/
  allScripts : Bool := true
  carriageReturn : Bool := false
deriving DecidableEq, Repr

/-- Flags with some marks applied. -/
def Flags.apply (flags : Flags) (marks : List FlagMark) : Flags where
  caseless := flagValue marks 'i' flags.caseless
  lines := flagValue marks 'm' flags.lines
  dotAll := flagValue marks 's' flags.dotAll
  lazy := flagValue marks 'U' flags.lazy
  allScripts := flagValue marks 'u' flags.allScripts
  carriageReturn := flagValue marks 'R' flags.carriageReturn

/-- The last code point that can be meant. -/
def Flags.top (flags : Flags) : Nat := if flags.allScripts then 0x10FFFF else 0xFF

/-- A set of characters, and whether it is known to be the same in both cases. -/
structure KnownSet where
  set : CharSet
  /-- Whether it is known to be the same in both cases. -/
  caseless : Bool
deriving DecidableEq, Repr

namespace KnownSet

/-- The set without characters. -/
def empty : KnownSet := ⟨.empty, true⟩

/-- A set of which nothing is known. -/
def ofSet (set : CharSet) : KnownSet := ⟨set, false⟩

/-- A set with one more range. -/
def insert (a : KnownSet) (first last : Char) : KnownSet :=
  ofSet (a.set.insert ⟨first.toNat, last.toNat⟩)

/-- The characters of one set or the other. -/
def union (a b : KnownSet) : KnownSet :=
  if b.set.isEmpty || a.set == b.set then a
  else ⟨.union a.set b.set, a.caseless && b.caseless⟩

/-- The characters of both sets. -/
def inter (a b : KnownSet) : KnownSet :=
  if a.set.isEmpty then a
  else if b.set.isEmpty then empty
  else ⟨.inter a.set b.set, a.caseless && b.caseless⟩

/-- The characters of the first set that are not in the second. -/
def diff (a b : KnownSet) : KnownSet :=
  if a.set.isEmpty || b.set.isEmpty then a
  else ⟨.diff a.set b.set, a.caseless && b.caseless⟩

/-- The characters of exactly one of two sets. -/
def symmDiff (a b : KnownSet) : KnownSet := (a.union b).diff (a.inter b)

/-- The characters that are not in a set, up to the last code point. -/
def compl (top : Nat) (a : KnownSet) : KnownSet :=
  ⟨.compl top a.set, a.set.isEmpty || a.caseless⟩

/-- The characters of a set in either case, for a class with a span. -/
def fold (flags : Flags) (span : Span) (a : KnownSet) : Except Fault KnownSet :=
  if !flags.caseless || a.caseless then .ok a
  else if a.set.isEmpty then .ok empty
  else if flags.allScripts then .error { cause := .unknownCase, span }
  else .ok ⟨.caseless a.set, true⟩

/-- What a class with a span stands for, from what is written in it. -/
def finish (flags : Flags) (negated : Bool) (span : Span) (a : KnownSet) :
    Except Fault KnownSet := do
  let folded ← a.fold flags span
  let set := if negated then folded.compl flags.top else folded
  if flags.allScripts || set.set.isAscii then return set
  else throw { cause := .notText, span }

end KnownSet

/-- What an operator does. -/
def ClassOperator.apply : ClassOperator → KnownSet → KnownSet → KnownSet
  | .inter => .inter
  | .diff => .diff
  | .symmDiff => .symmDiff

/-- The character that a letter stands for, if it is one. -/
def Letter.char? (flags : Flags) (letter : Letter) : Except Fault Char :=
  if !flags.allScripts && letter.isByte && decide ('\u007F' < letter.char) then
    .error { cause := .notText, span := letter.span }
  else .ok letter.char

/-- The character that a letter in a class stands for. -/
def Letter.member (flags : Flags) (letter : Letter) : Except Fault Char := do
  let c ← letter.char? flags
  if !flags.allScripts && decide ('\u007F' < c) then
    throw { cause := .notBytes, span := letter.span }
  return c

mutual

/-- What is meant by a class, together with the members in front of it. -/
def ClassTree.meaning (flags : Flags) (before : KnownSet) : ClassTree → Except Fault KnownSet
  | .empty _ => .ok before
  | .char letter => do
    let c ← letter.member flags
    return before.insert c c
  | .range first last => do
    let a ← first.member flags
    let b ← last.member flags
    return before.insert a b
  | .named negated set span => do
    return before.union (← (KnownSet.ofSet set).finish flags negated span)
  | .shorthand negated set span =>
    if flags.allScripts then .error { cause := .unknownClass, span }
    else if negated then .error { cause := .notText, span }
    else .ok (before.union (.ofSet set))
  | .property cause span =>
    .error { cause := if flags.allScripts then cause else .notBytes, span }
  | .bracket negated body span => do
    let inner ← body.meaning flags .empty
    return before.union (← inner.finish flags negated span)
  | .union items _ => membersMeaning flags before items
  | .binary operator left right => do
    let a ← left.meaning flags .empty
    let b ← right.meaning flags .empty
    let b ← b.fold flags right.span
    let a ← a.fold flags left.span
    return before.union (operator.apply a b)

/-- What is meant by members of a class, together with those in front of them. -/
def membersMeaning (flags : Flags) (before : KnownSet) : List ClassTree → Except Fault KnownSet
  | [] => .ok before
  | tree :: rest => do membersMeaning flags (← tree.meaning flags before) rest

end

example :
    (ClassTree.bracket true (.empty ⟨1, 1⟩) ⟨0, 2⟩).meaning { caseless := true } .empty =
      .ok ⟨⟨[⟨0, 0x10FFFF⟩]⟩, true⟩ := rfl

end ShiftReduce.Pattern
