import ShiftReduce.Pattern.Meaning
import ShiftReduce.Pattern.Reader
import ShiftReduce.Pattern.Size

/-!
# Written patterns

A written pattern is read if it is a tree, is not nested too deep, has a meaning
and does not take too much memory.  These are looked at in this order.  The edges
of words of all scripts are not known, which is found out between the two
machines of the pattern.
-/

namespace ShiftReduce.Pattern

/-- Whether a pattern asks for the edges of words of all scripts. -/
def asksForWords : Pattern → Bool
  | edge (.word _ allScripts) => allScripts
  | empty | literal _ | one _ | edge _ => false
  | group _ body | repeated _ body _ _ => body.asksForWords
  | seq a b | either a b => a.asksForWords || b.asksForWords

/-- Why a pattern has no machine that can be run. -/
def refusal? (pattern : Pattern) : Option Refusal :=
  if sizeLimit < pattern.machineSize .forward then some (.tooLarge sizeLimit)
  else if pattern.asksForWords then some .unknownWords
  else if sizeLimit < pattern.machineSize .backward then some (.tooLarge sizeLimit)
  else none

/-- What a written pattern means, as far as its parts are concerned. -/
def parse (text : String) : Except Fault Pattern := do
  let tree ← Tree.read text
  match tree.tooDeep? 0 with
  | some span => throw { cause := .nestedTooDeep depthLimit, span }
  | none => tree.pattern

/-- Reads a pattern. -/
def read (text : String) : Except Refusal Pattern :=
  match parse text with
  | .error fault => .error (.fault fault)
  | .ok pattern =>
    match pattern.refusal? with
    | some refusal => .error refusal
    | none => .ok pattern

example : (read "s(te|ta)").toOption =
    some (seq (literal ['s']) (group 1 (either (literal ['t', 'e']) (literal ['t', 'a'])))) := by
  decide +kernel

example : (read "\\b{0}x{327673}").toOption =
    some (repeated true (literal ['x']) 327673 (some 327673)) := by
  decide +kernel

end ShiftReduce.Pattern
