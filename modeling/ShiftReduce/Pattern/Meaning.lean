import ShiftReduce.Pattern.ClassMeaning
import ShiftReduce.Pattern.Simplify

/-!
# What trees mean

A tree stands for a pattern, if each of its parts has a meaning under the flags
in force there.  Flags that stand alone hold for the rest of their group, its
later alternatives included.
-/

namespace ShiftReduce.Pattern

/-- What is meant by a written character. -/
def Letter.meaning (flags : Flags) (letter : Letter) : Except Fault Pattern := do
  let c ← letter.char? flags
  if !flags.caseless then return literal [c]
  else if flags.allScripts then throw { cause := .unknownCase, span := letter.span }
  else if c.isAlpha then return one (.caseless (.single c))
  else return literal [c]

/-- What is meant by the dot. -/
def dotMeaning (flags : Flags) (span : Span) : Except Fault Pattern :=
  if !flags.allScripts then .error { cause := .notText, span }
  else if flags.dotAll then .ok (one (.compl flags.top .empty))
  else if flags.carriageReturn then
    .ok (one (.compl flags.top (.union (.single '\n') (.single '\r'))))
  else .ok (one (.compl flags.top (.single '\n')))

/-- What is meant by an edge. -/
def EdgeMark.meaning (flags : Flags) : EdgeMark → Edge
  | .circumflex => if flags.lines then .lineStart flags.carriageReturn else .textStart
  | .dollar => if flags.lines then .lineEnd flags.carriageReturn else .textEnd
  | .textStart => .textStart
  | .textEnd => .textEnd
  | .word kind => .word kind flags.allScripts

mutual

/-- What is meant by a tree, and the flags in force behind it. -/
def Tree.meaning (flags : Flags) : Tree → Except Fault (Pattern × Flags)
  | .empty => .ok (empty, flags)
  | .flags marks => .ok (empty, flags.apply marks)
  | .char letter => do return (← letter.meaning flags, flags)
  | .dot span => do return (← dotMeaning flags span, flags)
  | .edge mark _ => .ok (edge (mark.meaning flags), flags)
  | .cls tree => do
    let known ← tree.meaning flags .empty
    return (ofSet known.set, flags)
  | .repeated greedy body least most _ => do
    let (inner, flags) ← body.meaning flags
    return (repetition (greedy != flags.lazy) inner least most, flags)
  | .group (.numbered number) body _ => do
    let (inner, _) ← body.meaning flags
    return (group number inner, flags)
  | .group (.flagged marks) body _ => do
    let (inner, _) ← body.meaning (flags.apply marks)
    return (inner, flags)
  | .sequence items _ => do
    let (inner, flags) ← treesMeaning flags items
    return (sequence inner, flags)
  | .choice branches _ => do
    let (inner, flags) ← treesMeaning flags branches
    return (alternatives inner, flags)

/-- What is meant by trees one after another, and the flags in force behind them. -/
def treesMeaning (flags : Flags) : List Tree → Except Fault (List Pattern × Flags)
  | [] => .ok ([], flags)
  | tree :: rest => do
    let (pattern, flags) ← tree.meaning flags
    let (patterns, flags) ← treesMeaning flags rest
    return (pattern :: patterns, flags)

end

/-- What is meant by a whole tree. -/
def Tree.pattern (tree : Tree) : Except Fault Pattern := do
  return (← tree.meaning {}).1

end ShiftReduce.Pattern
