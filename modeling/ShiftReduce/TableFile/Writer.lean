import ShiftReduce.Tables.Declaration

/-!
# Writing a table file

Tables are written as the declarations that build them again: the end-marker,
then the productions, the actions and the gotos, each in the order of the
listing.  A line holds one declaration, and its words are parted by one space.
-/

namespace ShiftReduce

/-- The words of a declaration in a table file. -/
def Declaration.words : Declaration → List String
  | .endMarker terminal => ["eof", terminal]
  | .production id ⟨lhs, .symbols list⟩ => "prod" :: s!"{id}" :: lhs :: "->" :: list
  | .production id ⟨lhs, .length count⟩ => ["prod", s!"{id}", lhs, s!"{count}"]
  | .action state terminal what => ["action", s!"{state}", terminal, what.text]
  | .goto state nonTerminal next => ["goto", s!"{state}", nonTerminal, s!"{next}"]

/-- A declaration as a line of a table file. -/
def Declaration.line (declaration : Declaration) : String := " ".intercalate declaration.words

namespace Tables

/-- Declarations that build the tables. -/
def declarations (tables : Tables) : List Declaration :=
  .endMarker tables.endMarker ::
    (tables.productions.toList.map (fun entry => .production entry.1 entry.2) ++
      tables.actions.byRow.map (fun entry => .action entry.1.1 entry.1.2 entry.2) ++
      tables.gotos.byRow.map (fun entry => .goto entry.1.1 entry.1.2 entry.2))

/-- The text of a table file that declares the tables. -/
def fileText (tables : Tables) : String :=
  String.join (tables.declarations.map fun declaration => declaration.line ++ "\n")

end Tables

example : Declaration.line (.production 1 ⟨"S", .symbols ["A", "A"]⟩) = "prod 1 S -> A A" := by
  decide

end ShiftReduce
