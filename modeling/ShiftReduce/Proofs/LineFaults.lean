import ShiftReduce.Proofs.Format

/-!
# Faults of lines

`TableFile.LineFails` lists what can be wrong with a line when tables have been built
before it.  It is stated without the readers of the fields.

A directive asks for fields (`fieldsOf`), and the kind of a field says what words it
takes (`Field.Kind.Takes`).  The leftmost field that does not get such a word decides
the fault (`FirstMiss`).  If every field gets one, then the tables may refuse the
declaration, and only after that does a word count that is left over.

A text is refused at its first line that fails on the tables from the lines before it
(`FirstFault`).  Since a line feed between two texts parts their lines, the second text
goes on with the tables of the first, and its lines are counted on
(`read_firstFault`).
-/

namespace ShiftReduce.TableFile

open ShiftReduce.Text

/-! ## What can be wrong -/

/-- What a field is. -/
inductive Field.Kind where
  | symbol
  | number
  | action
  | rightHandSide
deriving DecidableEq

def Field.kind : Field → Field.Kind
  | .endMarker | .leftHandSide | .terminal | .nonTerminal => .symbol
  | .productionId | .state | .gotoState => .number
  | .action => .action
  | .rightHandSide => .rightHandSide

/-- The word is a 32-bit number. -/
def IsNumber (word : String) : Prop :=
  ∃ number : UInt32, Numeral.Spells word.toList number.toNat

/-- A field of the kind takes the word. -/
def Field.Kind.Takes : Field.Kind → String → Prop
  | .symbol, _ => True
  | .number, word => IsNumber word
  | .action, word => ∃ action, SpellsAction word.toList action
  | .rightHandSide, word => word = "->" ∨ IsNumber word

/-- The fault of a word that a field of the kind does not take. -/
def Field.Kind.invalid : Field.Kind → String → LineError
  | .action, word => .invalidAction word
  | .symbol, word | .number, word | .rightHandSide, word => .invalidNumber word

/-- A field does not get a word that it takes.  No word is there, or a comment starts
where no symbol is expected, or the word is of the wrong kind. -/
inductive Field.Misses (field : Field) : Option String → LineError → Prop where
  | absent : Misses field none (.missingField field)
  | comment {word : String} (kind : field.kind ≠ .symbol) (opens : opensComment word = true) :
      Misses field (some word) (.missingField field)
  | invalid {word : String} (opens : opensComment word = false)
      (takes : ¬ field.kind.Takes word) : Misses field (some word) (field.kind.invalid word)

/-- The first of the fields that does not get a word that it takes. -/
inductive FirstMiss : List Field → List String → LineError → Prop where
  | here {field : Field} {words : List String} {error : LineError} (fields : List Field)
      (misses : field.Misses words.head? error) : FirstMiss (field :: fields) words error
  | later {field : Field} {word : String} {fields : List Field} {words : List String}
      {error : LineError} (takes : field.kind.Takes word) (rest : FirstMiss fields words error) :
      FirstMiss (field :: fields) (word :: words) error

/-- The fields that a directive asks for.  A word that is no directive asks for none. -/
def fieldsOf : String → List Field
  | "eof" => [.endMarker]
  | "prod" => [.productionId, .leftHandSide, .rightHandSide]
  | "action" => [.state, .terminal, .action]
  | "goto" => [.state, .nonTerminal, .gotoState]
  | _ => []

/-- What is wrong with the words of a line, when the tables have been built before. -/
inductive LineFails (tables : Tables) : List String → LineError → Prop where
  | directive {word : String} (rest : List String) (opens : opensComment word = false)
      (unknown : fieldsOf word = []) : LineFails tables (word :: rest) (.unknownDirective word)
  | field {directive : String} {rest : List String} {error : LineError}
      (miss : FirstMiss (fieldsOf directive) rest error) :
      LineFails tables (directive :: rest) error
  | table {words rest : List String} {declaration : Declaration} {error : TableError}
      (declares : Declares words declaration rest)
      (refuses : tables.Refuses declaration error) : LineFails tables words (.table error)
  | leftOver {words rest : List String} {word : String} {declaration : Declaration}
      {extended : Tables} (declares : Declares words declaration (word :: rest))
      (accepts : tables.Extends declaration extended) (opens : opensComment word = false) :
      LineFails tables words (.extraField word)

/-- Each of the lines has a shape, and what they declare builds on the tables. -/
def Applies (tables : Tables) (list : List String) (built : Tables) : Prop :=
  ∃ steps, List.Forall₂ LineDeclares (list.map words) steps ∧
    tables.declareAll steps.flatten = .ok built

/-- The line with the number, counted from one, fails on the tables that the lines
before it build. -/
def FirstFault (tables : Tables) (list : List String) (number : Nat) (error : LineError) :
    Prop :=
  ∃ earlier line later middle, list = earlier ++ line :: later ∧ number = earlier.length + 1 ∧
    Applies tables earlier middle ∧ LineFails middle (words line) error

/-! ## Fields -/

section Fields

variable {field : Field} {fields : List Field} {word : String} {words rest : List String}
  {error : LineError}

theorem Field.misses_none_iff : field.Misses none error ↔ .missingField field = error := by
  constructor
  · rintro ⟨⟩
    rfl
  · rintro rfl
    exact .absent

theorem Field.misses_comment_iff (hkind : field.kind ≠ .symbol)
    (hopens : opensComment word = true) :
    field.Misses (some word) error ↔ .missingField field = error := by
  constructor
  · intro h
    cases h with
    | comment => rfl
    | invalid opens =>
        rw [hopens] at opens
        cases opens
  · rintro rfl
    exact .comment hkind hopens

theorem Field.misses_invalid_iff (hopens : opensComment word = false) :
    field.Misses (some word) error ↔
      ¬ field.kind.Takes word ∧ field.kind.invalid word = error := by
  constructor
  · intro h
    cases h with
    | comment _ opens =>
        rw [hopens] at opens
        cases opens
    | invalid _ takes => exact ⟨takes, rfl⟩
  · rintro ⟨takes, rfl⟩
    exact .invalid hopens takes

/-- A word that starts a comment is taken as a symbol or not at all. -/
theorem Field.Kind.Takes.opensComment {kind : Field.Kind} (h : kind.Takes word)
    (hkind : kind ≠ .symbol) : opensComment word = false := by
  cases kind with
  | symbol => exact absurd rfl hkind
  | number =>
      obtain ⟨number, hnumber⟩ := h
      exact opensComment_of_spells hnumber
  | action =>
      obtain ⟨action, haction⟩ := h
      exact opensComment_of_spellsAction haction
  | rightHandSide =>
      obtain rfl | ⟨number, hnumber⟩ := h
      · decide
      · exact opensComment_of_spells hnumber

/-- A word that is missed is not taken. -/
theorem Field.Misses.not_takes (h : field.Misses (some word) error) : ¬ field.kind.Takes word := by
  cases h with
  | comment kind opens =>
      intro takes
      rw [takes.opensComment kind] at opens
      cases opens
  | invalid opens takes => exact takes

/-! ### Readers of fields -/

theorem bind_eq_error_iff_first {ε α β : Type} {first : Except ε α} {next : α → Except ε β}
    {e : ε} (hnext : ∀ a, next a ≠ .error e) :
    (first >>= next) = .error e ↔ first = .error e :=
  bind_eq_error_iff.trans (or_iff_left fun ⟨a, _, h⟩ => hnext a h)

theorem symbolField_eq_error_iff (hkind : field.kind = .symbol) :
    symbolField field words = .error error ↔ field.Misses words.head? error := by
  cases words with
  | nil =>
      rw [List.head?_nil, field.misses_none_iff]
      exact .of_eq (Except.error.injEq ..)
  | cons word rest =>
      constructor
      · intro h
        cases h
      · intro h
        exact absurd (hkind ▸ trivial) h.not_takes

/-- The readers of the other fields look for a comment first, and then at the word. -/
theorem wordField_bind_eq_error_iff {α : Type}
    {next : String × List String → Except LineError α} (hkind : field.kind ≠ .symbol)
    (hnext : ∀ word rest, next (word, rest) = .error error ↔
      ¬ field.kind.Takes word ∧ field.kind.invalid word = error) :
    (wordField field words >>= next) = .error error ↔ field.Misses words.head? error := by
  cases words with
  | nil =>
      rw [List.head?_nil, field.misses_none_iff]
      exact .of_eq (Except.error.injEq ..)
  | cons word rest =>
      rw [List.head?_cons, wordField]
      cases opens : opensComment word with
      | true =>
          rw [field.misses_comment_iff hkind opens]
          exact .of_eq (Except.error.injEq ..)
      | false =>
          rw [field.misses_invalid_iff opens]
          exact hnext word rest

theorem readNumber_eq_error_iff :
    readNumber word = .error error ↔ ¬ IsNumber word ∧ .invalidNumber word = error := by
  simp only [IsNumber, ← Numeral.readUInt32_eq_ok_iff, readNumber]
  cases Numeral.readUInt32 word.toList <;> simp

theorem readAction_eq_error_iff :
    readAction word = .error error ↔
      (¬ ∃ action, SpellsAction word.toList action) ∧ .invalidAction word = error := by
  simp only [← actionOfLetters_map_toLower_iff, readAction]
  cases actionOfLetters (word.toList.map Char.toLower) <;> simp

theorem numberField_eq_error_iff (hkind : field.kind = .number) :
    numberField field words = .error error ↔ field.Misses words.head? error := by
  refine wordField_bind_eq_error_iff (by rw [hkind]; decide) fun word rest => ?_
  rw [hkind]
  exact (bind_eq_error_iff_first nofun).trans readNumber_eq_error_iff

theorem actionField_eq_error_iff :
    actionField words = .error error ↔ Field.action.Misses words.head? error := by
  refine wordField_bind_eq_error_iff (by decide) fun word rest => ?_
  exact (bind_eq_error_iff_first nofun).trans readAction_eq_error_iff

theorem rightHandSideField_eq_error_iff :
    rightHandSideField words = .error error ↔ Field.rightHandSide.Misses words.head? error := by
  refine wordField_bind_eq_error_iff (by decide) fun word rest => ?_
  by_cases hword : word = "->"
  · simp [hword, Field.kind, Field.Kind.Takes, pure, Except.pure]
  · simp only [hword, if_false, Field.kind, Field.Kind.Takes, Field.Kind.invalid, false_or]
    exact (bind_eq_error_iff_first nofun).trans readNumber_eq_error_iff

/-! ### Fields in order -/

/-- The reader reads a word that the field takes, and else it fails. -/
structure Field.ReadBy {α : Type} (field : Field)
    (reader : List String → Except LineError (α × List String)) : Prop where
  error_iff : ∀ {words error}, reader words = .error error ↔ field.Misses words.head? error
  ok : ∀ {words value rest}, reader words = .ok (value, rest) →
    ∃ word, words = word :: rest ∧ field.kind.Takes word

theorem Field.ReadBy.symbol (hkind : field.kind = .symbol) :
    field.ReadBy (symbolField field) where
  error_iff := symbolField_eq_error_iff hkind
  ok h := ⟨_, symbolField_eq_ok_iff.1 h, hkind ▸ trivial⟩

theorem Field.ReadBy.number (hkind : field.kind = .number) :
    field.ReadBy (numberField field) where
  error_iff := numberField_eq_error_iff hkind
  ok h := by
    obtain ⟨word, hwords, hnumber⟩ := numberField_eq_ok_iff.1 h
    exact ⟨word, hwords, hkind ▸ ⟨_, hnumber⟩⟩

/-- The reader of the first field comes before the others, and they go on behind its
word. -/
theorem Field.ReadBy.bind_eq_error_iff {α β : Type}
    {reader : List String → Except LineError (α × List String)}
    {next : α × List String → Except LineError β} (hreader : field.ReadBy reader)
    (hnext : ∀ value rest, next (value, rest) = .error error ↔ FirstMiss fields rest error) :
    (reader words >>= next) = .error error ↔ FirstMiss (field :: fields) words error := by
  rw [ShiftReduce.bind_eq_error_iff, hreader.error_iff]
  constructor
  · rintro (hmisses | ⟨⟨value, rest⟩, hread, herror⟩)
    · exact .here fields hmisses
    · obtain ⟨word, rfl, htakes⟩ := hreader.ok hread
      exact .later htakes ((hnext value rest).1 herror)
  · intro h
    cases h with
    | here _ misses => exact .inl misses
    | @later _ word _ words _ takes rest =>
        -- the reader does not fail on a word that the field takes, so it leaves the rest
        cases hread : reader (word :: words) with
        | error e => exact absurd takes (hreader.error_iff.1 hread).not_takes
        | ok read =>
            obtain ⟨word', hwords, -⟩ := hreader.ok hread
            obtain ⟨-, hrest⟩ := List.cons.inj hwords
            exact .inr ⟨read, rfl, (hnext read.1 read.2).2 (hrest ▸ rest)⟩

theorem firstMiss_singleton_iff :
    FirstMiss [field] words error ↔ field.Misses words.head? error := by
  constructor
  · intro h
    cases h with
    | here _ misses => exact misses
    | later _ rest => cases rest
  · exact .here []

/-- Nothing that could fail comes behind the reader of the last field.  That reader may
take more than one word, as the one of a right-hand side does behind an arrow. -/
theorem bind_eq_error_iff_last {α β : Type}
    {reader : List String → Except LineError α} {next : α → Except LineError β}
    (hreader : reader words = .error error ↔ field.Misses words.head? error)
    (hnext : ∀ value, next value ≠ .error error) :
    (reader words >>= next) = .error error ↔ FirstMiss [field] words error := by
  rw [bind_eq_error_iff_first hnext, hreader, firstMiss_singleton_iff]

/-- Reading a declaration fails as the first field that is missed, or because there is
no such directive. -/
theorem readDeclaration_eq_error_iff {directive : String} :
    readDeclaration directive words = .error error ↔
      FirstMiss (fieldsOf directive) words error ∨
        fieldsOf directive = [] ∧ .unknownDirective directive = error := by
  have hknown : fieldsOf directive ≠ [] →
      (FirstMiss (fieldsOf directive) words error ∨
        fieldsOf directive = [] ∧ .unknownDirective directive = error ↔
          FirstMiss (fieldsOf directive) words error) :=
    fun hfields => or_iff_left fun h => hfields h.1
  unfold readDeclaration
  split
  · rw [hknown (by decide)]
    exact bind_eq_error_iff_last (symbolField_eq_error_iff rfl) nofun
  · rw [hknown (by decide)]
    refine Field.ReadBy.bind_eq_error_iff (.number rfl) fun id words => ?_
    refine Field.ReadBy.bind_eq_error_iff (.symbol rfl) fun lhs words => ?_
    exact bind_eq_error_iff_last rightHandSideField_eq_error_iff nofun
  · rw [hknown (by decide)]
    refine Field.ReadBy.bind_eq_error_iff (.number rfl) fun state words => ?_
    refine Field.ReadBy.bind_eq_error_iff (.symbol rfl) fun terminal words => ?_
    exact bind_eq_error_iff_last actionField_eq_error_iff nofun
  · rw [hknown (by decide)]
    refine Field.ReadBy.bind_eq_error_iff (.number rfl) fun state words => ?_
    refine Field.ReadBy.bind_eq_error_iff (.symbol rfl) fun nonTerminal words => ?_
    exact bind_eq_error_iff_last (numberField_eq_error_iff rfl) nofun
  · -- the word is none of the four directives
    have hfields : fieldsOf directive = [] := by simp [fieldsOf, *]
    rw [hfields]
    constructor
    · intro h
      exact .inr ⟨rfl, Except.error.inj h⟩
    · rintro (h | ⟨-, rfl⟩)
      · cases h
      · rfl

end Fields

/-! ## Lines -/

section Lines

variable {tables : Tables} {directive line : String} {fields : List String} {error : LineError}

theorem opensComment_of_fieldsOf (h : fieldsOf directive ≠ []) :
    opensComment directive = false := by
  unfold fieldsOf at h
  split at h
  · decide
  · decide
  · decide
  · decide
  · exact absurd rfl h

theorem FirstMiss.ne_nil {fields : List Field} {words : List String}
    (h : FirstMiss fields words error) : fields ≠ [] := by
  cases h <;> exact List.cons_ne_nil _ _

theorem lineFails_nil : ¬ LineFails tables [] error := by
  intro h
  cases h with
  | table declares => cases declares
  | leftOver declares => cases declares

/-- A line that starts with a comment does not fail. -/
theorem LineFails.opensComment_directive (h : LineFails tables (directive :: fields) error) :
    opensComment directive = false := by
  cases h with
  | directive _ opens => exact opens
  | field miss => exact opensComment_of_fieldsOf miss.ne_nil
  | table declares => exact declares.opensComment_directive
  | leftOver declares => exact declares.opensComment_directive

theorem mapError_eq_error_iff {ε ε' α : Type} {x : Except ε α} {f : ε → ε'} {e' : ε'} :
    x.mapError f = .error e' ↔ ∃ e, x = .error e ∧ f e = e' := by
  cases x <;> simp [Except.mapError]

theorem endOfFields_eq_error_iff {rest : List String} :
    endOfFields rest = .error error ↔
      ∃ word more, rest = word :: more ∧ opensComment word = false ∧ .extraField word = error := by
  cases rest with
  | nil => simp [endOfFields]
  | cons word more => cases h : opensComment word <;> simp [endOfFields, h]

/-- A declaration that has been read is refused by the tables, or accepted and then
followed by a word that is left over. -/
theorem declare_bind_eq_error_iff {declaration : Declaration} {rest : List String} :
    ((tables.declare declaration).mapError .table >>= fun extended =>
        endOfFields rest >>= fun _ => pure extended) = .error error ↔
      (∃ e, tables.Refuses declaration e ∧ .table e = error) ∨
        ∃ extended, tables.Extends declaration extended ∧
          ∃ word more, rest = word :: more ∧ opensComment word = false ∧
            .extraField word = error := by
  have hlast : ∀ extended : Tables, (endOfFields rest >>= fun _ => pure extended) = .error error ↔
      endOfFields rest = .error error := fun _ => bind_eq_error_iff_first nofun
  simp only [bind_eq_error_iff, mapError_eq_error_iff, mapError_eq_ok_iff, hlast,
    Tables.declare_eq_error_iff, Tables.declare_eq_ok_iff, endOfFields_eq_error_iff]

theorem lineFails_cons_iff (opens : opensComment directive = false) :
    LineFails tables (directive :: fields) error ↔
      (FirstMiss (fieldsOf directive) fields error ∨
        fieldsOf directive = [] ∧ .unknownDirective directive = error) ∨
      ∃ declaration rest, Declares (directive :: fields) declaration rest ∧
        ((∃ e, tables.Refuses declaration e ∧ .table e = error) ∨
          ∃ extended, tables.Extends declaration extended ∧
            ∃ word more, rest = word :: more ∧ opensComment word = false ∧
              .extraField word = error) := by
  constructor
  · intro h
    cases h with
    | directive _ _ unknown => exact .inl (.inr ⟨unknown, rfl⟩)
    | field miss => exact .inl (.inl miss)
    | table declares refuses => exact .inr ⟨_, _, declares, .inl ⟨_, refuses, rfl⟩⟩
    | leftOver declares accepts hopens =>
        exact .inr ⟨_, _, declares, .inr ⟨_, accepts, _, _, rfl, hopens, rfl⟩⟩
  · rintro ((miss | ⟨unknown, rfl⟩) | ⟨declaration, rest, declares, ⟨e, refuses, rfl⟩ |
      ⟨extended, accepts, word, more, rfl, hopens, rfl⟩⟩)
    · exact .field miss
    · exact .directive fields opens unknown
    · exact .table declares refuses
    · exact .leftOver declares accepts hopens

/-- A line fails to be applied exactly if one of the faults is in it. -/
theorem applyLine_eq_error_iff :
    applyLine tables line = .error error ↔ LineFails tables (words line) error := by
  unfold applyLine
  cases words line with
  | nil => simp [lineFails_nil]
  | cons directive fields =>
      cases opens : opensComment directive with
      | true =>
          simp only [opens, if_true, reduceCtorEq, false_iff]
          intro h
          rw [h.opensComment_directive] at opens
          cases opens
      | false =>
          simp only [opens, Bool.false_eq_true, if_false, lineFails_cons_iff opens]
          refine bind_eq_error_iff.trans (or_congr readDeclaration_eq_error_iff ?_)
          simp only [Prod.exists, readDeclaration_eq_ok_iff]
          exact exists₂_congr fun declaration rest => and_congr_right' declare_bind_eq_error_iff

end Lines

/-! ## Texts -/

section Texts

variable {tables built : Tables} {number place : Nat} {line : String} {list rest : List String}
  {fault : LineError} {error : LoadError}

theorem applies_iff (number : Nat) :
    Applies tables list built ↔ applyLines number tables list = .ok built :=
  applyLines_eq_ok_iff.symm

theorem applies_nil_iff : Applies tables [] built ↔ tables = built := by
  rw [applies_iff 1, applyLines, Except.ok.injEq]

theorem applies_cons_iff :
    Applies tables (line :: rest) built ↔
      ∃ extended, applyLine tables line = .ok extended ∧ Applies extended rest built := by
  rw [applies_iff 1, applyLines_cons_eq_ok_iff]
  exact exists_congr fun extended => and_congr_right' (applies_iff 2).symm

/-- The first fault is in the first line, or in the others when that one applies. -/
theorem firstFault_cons_iff :
    FirstFault tables (line :: rest) place fault ↔
      place = 1 ∧ applyLine tables line = .error fault ∨
        ∃ extended, applyLine tables line = .ok extended ∧
          ∃ before, place = before + 1 ∧ FirstFault extended rest before fault := by
  constructor
  · rintro ⟨earlier, first, later, middle, hlist, rfl, happlies, hfails⟩
    cases earlier with
    | nil =>
        obtain ⟨rfl, rfl⟩ := List.cons.inj hlist
        obtain rfl := applies_nil_iff.1 happlies
        exact .inl ⟨rfl, applyLine_eq_error_iff.2 hfails⟩
    | cons _ earlier =>
        obtain ⟨rfl, rfl⟩ := List.cons.inj hlist
        obtain ⟨extended, hline, happlies⟩ := applies_cons_iff.1 happlies
        exact .inr ⟨extended, hline, _, rfl, earlier, first, later, middle, rfl, rfl, happlies,
          hfails⟩
  · rintro (⟨rfl, hline⟩ | ⟨extended, hline, before, rfl, earlier, first, later, middle, rfl, rfl,
      happlies, hfails⟩)
    · exact ⟨[], line, rest, tables, rfl, rfl, applies_nil_iff.2 rfl,
        applyLine_eq_error_iff.1 hline⟩
    · exact ⟨line :: earlier, first, later, middle, rfl, rfl,
        applies_cons_iff.2 ⟨extended, hline, happlies⟩, hfails⟩

/-- Lines fail to be applied exactly if one of them is the first that fails.  The number
counts on from the lines before. -/
theorem applyLines_eq_error_iff :
    applyLines (number + 1) tables list = .error error ↔
      ∃ place fault, error = .line (number + place) fault ∧ FirstFault tables list place fault := by
  induction list generalizing number tables with
  | nil => simp [applyLines, FirstFault]
  | cons line rest ih =>
      rw [applyLines]
      cases hline : applyLine tables line with
      | error fault => simp [firstFault_cons_iff, hline, eq_comm]
      | ok extended =>
          simp only [firstFault_cons_iff, hline, ih, reduceCtorEq, and_false, false_or,
            Except.ok.injEq, exists_eq_left']
          constructor
          · rintro ⟨place, fault, rfl, hfirst⟩
            exact ⟨place + 1, fault, by rw [Nat.add_right_comm, Nat.add_assoc], place, rfl, hfirst⟩
          · rintro ⟨_, fault, rfl, place, rfl, hfirst⟩
            exact ⟨place, fault, by rw [Nat.add_right_comm, Nat.add_assoc], hfirst⟩

/-- Lines are applied on what the lines before them build. -/
theorem applyLines_append (front back : List String) :
    applyLines number tables (front ++ back) =
      applyLines number tables front >>= fun middle =>
        applyLines (number + front.length) middle back := by
  induction front generalizing number tables with
  | nil => rfl
  | cons line rest ih =>
      rw [List.cons_append, applyLines, applyLines]
      cases applyLine tables line with
      | error fault => rfl
      | ok extended =>
          rw [List.length_cons, Nat.add_comm rest.length, ← Nat.add_assoc]
          exact ih

theorem read_append (front back : String) :
    read (front ++ "\n" ++ back) =
      read front >>= fun middle =>
        applyLines (front.toList.count '\n' + 1 + 1) middle (fileLines back) := by
  rw [read, lines_append, applyLines_append, length_lines, Nat.add_comm 1]
  simp only [applyLines_fileLines]
  rfl

/-- A text is refused for its first line that fails, and for nothing else.  A text
behind another is read on the tables of the other, with its lines counted on from
there. -/
theorem read_firstFault :
    (∀ text error, read text = .error error ↔
      ∃ number fault, error = .line number fault ∧
        FirstFault .empty (fileLines text) number fault) ∧
    ∀ front back : String,
      (∀ error, read front = .error error → read (front ++ "\n" ++ back) = .error error) ∧
      ∀ middle, read front = .ok middle →
        (∀ built, read (front ++ "\n" ++ back) = .ok built ↔
          Applies middle (fileLines back) built) ∧
        ∀ number fault, read (front ++ "\n" ++ back) = .error (.line number fault) ↔
          ∃ place, number = front.toList.count '\n' + 1 + place ∧
            FirstFault middle (fileLines back) place fault := by
  refine ⟨fun text error => ?_, fun front back => ⟨fun error hfront => ?_, fun middle hfront =>
    ⟨fun built => ?_, fun number fault => ?_⟩⟩⟩
  · rw [read_eq_applyLines, ← Nat.zero_add 1, applyLines_eq_error_iff]
    simp only [Nat.zero_add]
  · rw [read_append, hfront]
    rfl
  · rw [read_append, hfront]
    exact (applies_iff _).symm
  · rw [read_append, hfront]
    refine applyLines_eq_error_iff.trans ?_
    constructor
    · rintro ⟨place, fault', hline, hfirst⟩
      obtain ⟨rfl, rfl⟩ := LoadError.line.inj hline
      exact ⟨place, rfl, hfirst⟩
    · rintro ⟨place, rfl, hfirst⟩
      exact ⟨place, fault, rfl, hfirst⟩

/-- A file is refused in its second half, for a contradiction to its first half.  In a
file that is refused in its first half the second does not count. -/
theorem read_firstFault_conflict :
    let middle := Tables.ofDeclarations [.endMarker "$", .action 0 "a" (.shift 1)]
    let conflict : LineError := .table (.actionConflict 0 "a" (.shift 1) (.shift 2))
    read "eof $\r\naction 0 a s1" = .ok middle ∧
      FirstFault middle (fileLines "# again\r\naction 0 a s2\n") 2 conflict ∧
      read ("eof $\r\naction 0 a s1" ++ "\n" ++ "# again\r\naction 0 a s2\n") =
        .error (.line 4 conflict) ∧
      read "goto 0 A x" = .error (.line 1 (.invalidNumber "x")) ∧
      read ("goto 0 A x" ++ "\n" ++ "eof $") = .error (.line 1 (.invalidNumber "x")) := by
  intro middle conflict
  have hfront : read "eof $\r\naction 0 a s1" = .ok middle := by rfl
  have hrefused : read "goto 0 A x" = .error (.line 1 (.invalidNumber "x")) := by rfl
  have hfirst : FirstFault middle (fileLines "# again\r\naction 0 a s2\n") 2 conflict := by
    have hfault : applyLines (0 + 1) middle (fileLines "# again\r\naction 0 a s2\n") =
        .error (.line 2 conflict) := by rfl
    obtain ⟨place, fault, hline, hfirst⟩ := applyLines_eq_error_iff.1 hfault
    obtain ⟨hplace, rfl⟩ := LoadError.line.inj hline
    obtain rfl : place = 2 := by omega
    exact hfirst
  have hfaults := (read_firstFault.2 "eof $\r\naction 0 a s1" "# again\r\naction 0 a s2\n").2
  exact ⟨hfront, hfirst, ((hfaults middle hfront).2 4 conflict).2 ⟨2, rfl, hfirst⟩, hrefused,
    (read_firstFault.2 _ _).1 _ hrefused⟩

end Texts

end ShiftReduce.TableFile
