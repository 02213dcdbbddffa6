import ShiftReduce.Log.Record
import ShiftReduce.Pattern.Written
import ShiftReduce.Text.Blank

/-!
# Filters

A *filter* of the log decides which records are kept.  It has *directives*,
which look at the level and the target of a record, and may have a pattern,
which has to occur in its message.

The directives are written as a list with commas.  A level, such as `debug`,
stands for all targets.  `target=level` stands for the targets that start with
the one given, and a lone target for all its levels.  The longest target that
fits decides, and of two equal ones the later.  A record that nothing fits is
not kept.  The pattern stands behind a slash.

What makes no sense in a written filter is left out, with a *complaint*.
-/

namespace ShiftReduce.Log

/-! ## Directives -/

/-- The levels that are kept for the targets that start with a given one. -/
structure Directive where
  target : String
  /-- The highest rank that is kept.  No record has rank zero. -/
  rank : Nat
deriving DecidableEq, Repr

/-- The rank that a word stands for, in any case. -/
def rankOfWord? (word : List Char) : Option Nat :=
  match String.ofList (word.map Char.toLower) with
  | "off" => some 0
  | "error" => some Level.error.rank
  | "warn" => some Level.warn.rank
  | "info" => some Level.info.rank
  | "debug" => some Level.debug.rank
  | "trace" => some Level.trace.rank
  | _ => none

/-! ## Complaints -/

/-- Why part of a written filter is left out. -/
inductive Complaint where
  | unclear (part : String)
  | tooManySlashes (text : String)
  | badPattern (text : String) (refusal : Pattern.Refusal)
deriving DecidableEq, Repr

/-- A complaint in words. -/
def Complaint.message : Complaint → String
  | .unclear part => s!"warning: invalid logging spec '{part}', ignoring it"
  | .tooManySlashes text =>
    s!"warning: invalid logging spec '{text}', ignoring it (too many '/'s)"
  | .badPattern text refusal => s!"warning: invalid regex filter - {refusal.report text}"

/-- Reads a directive.  Blanks matter only inside it and in front of an equals sign. -/
def Directive.read (part : List Char) : Except Complaint Directive :=
  let part := Text.trim part
  match part.splitOn '=' with
  | [word] =>
    match rankOfWord? word with
    | some rank => .ok ⟨"", rank⟩
    | none => .ok ⟨String.ofList word, Level.trace.rank⟩
  | [target, word] =>
    match Text.trim word with
    | [] => .ok ⟨String.ofList target, Level.trace.rank⟩
    | word =>
      match rankOfWord? word with
      | some rank => .ok ⟨String.ofList target, rank⟩
      | none => .error (.unclear (String.ofList word))
  | _ => .error (.unclear (String.ofList part))

/-! ## Filters -/

/-- What is kept of the log. -/
structure Filter where
  directives : List Directive := []
  /-- What has to occur in a message. -/
  pattern? : Option Pattern := none
deriving DecidableEq, Repr

namespace Filter

/-- The directive that decides on a target. -/
def directive? (filter : Filter) (target : String) : Option Directive :=
  filter.directives.foldl
    (fun best candidate =>
      if candidate.target.toList.isPrefixOf target.toList &&
          best.all fun directive => decide (directive.target.length ≤ candidate.target.length)
      then some candidate else best)
    none

/-- Whether the directives keep records of a level and a target. -/
def allows (filter : Filter) (level : Level) (target : String) : Bool :=
  (filter.directive? target).any fun directive => decide (level.rank ≤ directive.rank)

/-- Whether a record is kept. -/
def keeps (filter : Filter) (record : Record) : Bool :=
  filter.allows record.level record.target &&
    filter.pattern?.all fun pattern => pattern.occursIn record.message

/-- A record that is kept has a level and a target that the directives keep. -/
theorem allows_of_keeps {filter : Filter} {record : Record} (h : filter.keeps record = true) :
    filter.allows record.level record.target = true :=
  (Bool.and_eq_true_iff.1 h).1

end Filter

/-! ## Written filters -/

/-- What a written filter comes to. -/
structure Reading where
  filter : Filter := {}
  complaints : List Complaint := []
deriving DecidableEq, Repr

namespace Reading

/-- Reads one more directive. -/
def insert (reading : Reading) (part : List Char) : Reading :=
  match Directive.read part with
  | .ok directive =>
    { reading with
      filter := { reading.filter with directives := reading.filter.directives ++ [directive] } }
  | .error complaint => { reading with complaints := reading.complaints ++ [complaint] }

/-- Reads directives with commas between them.  Blank ones say nothing. -/
def ofDirectives (text : List Char) : Reading :=
  ((text.splitOn ',').filter fun part => !part.all Text.isBlank).foldl insert {}

/-- Reads a pattern as well. -/
def withPattern (reading : Reading) (text : String) : Reading :=
  match Pattern.read text with
  | .ok pattern => { reading with filter := { reading.filter with pattern? := some pattern } }
  | .error refusal =>
    { reading with complaints := reading.complaints ++ [.badPattern text refusal] }

/-- Reads a filter. -/
def ofText (text : String) : Reading :=
  match text.toList.splitOn '/' with
  | [directives] => ofDirectives directives
  | [directives, pattern] => (ofDirectives directives).withPattern (String.ofList pattern)
  | _ => { complaints := [.tooManySlashes text] }

end Reading

example :
    let filter := (Reading.ofText "a::b=off, trace/x+y").filter
    filter.keeps ⟨.trace, "a", "xxy"⟩ = true ∧ filter.keeps ⟨.trace, "a", "xx"⟩ = false ∧
      filter.keeps ⟨.debug, "a::b", "xxy"⟩ = false := by
  decide +kernel

example : ((Reading.ofText "a=loud,info/(").complaints.map Complaint.message) =
    ["warning: invalid logging spec 'loud', ignoring it",
      "warning: invalid regex filter - " ++
        "regex parse error:\n    (\n    ^\nerror: unclosed group"] := by
  decide +kernel

end ShiftReduce.Log
