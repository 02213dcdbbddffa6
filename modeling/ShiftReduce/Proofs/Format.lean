import Mathlib.Data.List.Forall2
import ShiftReduce.Proofs.Building
import ShiftReduce.Proofs.Lines
import ShiftReduce.Proofs.Numerals
import ShiftReduce.TableFile.Load

/-!
# The format of a table file

`TableFile.LineDeclares` lists the shapes that a line may have, by its words, and what
a line of each shape declares.  It is stated without the readers of the fields.

A text is loaded exactly if each of its lines has one of the shapes and the
declarations of the lines, in their order, build tables without being refused.  Then
these are the tables that are loaded (`TableFile.read_eq_ok_iff_lineDeclares`).

There is one lemma for each reader of a field, which says what it accepts.  A word
that starts with `#` ends a line where a number or an action is expected and after the
last field.  Where a symbol is expected it is the symbol, and no shape asks what a
symbol starts with.
-/

namespace ShiftReduce.TableFile

open ShiftReduce.Text

/-! ## Shapes -/

/-- The word stands for the action, in ASCII letters of either case. -/
inductive SpellsAction : List Char → Action → Prop where
  | accept {word : List Char} (letters : word.map Char.toLower = "acc".toList ∨
      word.map Char.toLower = "accept".toList) : SpellsAction word .accept
  | error {word : List Char} (letters : word.map Char.toLower = "err".toList ∨
      word.map Char.toLower = "error".toList) : SpellsAction word .error
  | shift {letter : Char} {numeral : List Char} {next : State} (hletter : letter.toLower = 's')
      (number : Numeral.Spells numeral next.toNat) :
      SpellsAction (letter :: numeral) (.shift next)
  | reduce {letter : Char} {numeral : List Char} {id : ProductionId}
      (hletter : letter.toLower = 'r') (number : Numeral.Spells numeral id.toNat) :
      SpellsAction (letter :: numeral) (.reduce id)

/-- The words make a declaration, and some of them are left over. -/
inductive Declares : List String → Declaration → List String → Prop where
  | endMarker (terminal : Symbol) (rest : List String) :
      Declares ("eof" :: terminal :: rest) (.endMarker terminal) rest
  | rule {number : String} {id : ProductionId} (lhs : Symbol) (list : List Symbol)
      (hid : Numeral.Spells number.toList id.toNat) :
      Declares ("prod" :: number :: lhs :: "->" :: list)
        (.production id ⟨lhs, .symbols list⟩) []
  | length {number count : String} {id : ProductionId} {size : UInt32} (lhs : Symbol)
      (rest : List String) (hid : Numeral.Spells number.toList id.toNat)
      (hsize : Numeral.Spells count.toList size.toNat) :
      Declares ("prod" :: number :: lhs :: count :: rest)
        (.production id ⟨lhs, .length size.toNat⟩) rest
  | action {number word : String} {state : State} {what : Action} (terminal : Symbol)
      (rest : List String) (hstate : Numeral.Spells number.toList state.toNat)
      (hwhat : SpellsAction word.toList what) :
      Declares ("action" :: number :: terminal :: word :: rest)
        (.action state terminal what) rest
  | goto {number target : String} {state next : State} (nonTerminal : Symbol)
      (rest : List String) (hstate : Numeral.Spells number.toList state.toNat)
      (hnext : Numeral.Spells target.toList next.toNat) :
      Declares ("goto" :: number :: nonTerminal :: target :: rest)
        (.goto state nonTerminal next) rest

/-- What the words of a line declare, if they have one of the shapes. -/
inductive LineDeclares : List String → List Declaration → Prop where
  | blank : LineDeclares [] []
  | comment {word : String} (rest : List String) (opens : opensComment word = true) :
      LineDeclares (word :: rest) []
  | declaration {words rest : List String} {declaration : Declaration}
      (declares : Declares words declaration rest)
      (ends : ∀ word ∈ rest.head?, opensComment word = true) :
      LineDeclares words [declaration]

/-! ## Fields -/

section Fields

variable {field : Field} {word : String} {words rest : List String}

theorem symbolField_eq_ok_iff {symbol : Symbol} :
    symbolField field words = .ok (symbol, rest) ↔ words = symbol :: rest := by
  cases words with
  | nil => simp [symbolField]
  | cons first others => simp [symbolField]

theorem wordField_eq_ok_iff :
    wordField field words = .ok (word, rest) ↔
      words = word :: rest ∧ opensComment word = false := by
  cases words with
  | nil => simp [wordField]
  | cons first others =>
      cases opens : opensComment first with
      | true =>
          simp only [wordField, opens, if_true]
          constructor
          · intro h
            cases h
          · rintro ⟨h, hword⟩
            obtain ⟨rfl, rfl⟩ := List.cons.inj h
            rw [opens] at hword
            cases hword
      | false =>
          simp only [wordField, opens, Bool.false_eq_true, if_false]
          constructor
          · intro h
            cases h
            exact ⟨rfl, opens⟩
          · rintro ⟨h, -⟩
            obtain ⟨rfl, rfl⟩ := List.cons.inj h
            rfl

theorem readNumber_eq_ok_iff {number : UInt32} :
    readNumber word = .ok number ↔ Numeral.Spells word.toList number.toNat := by
  rw [← Numeral.readUInt32_eq_ok_iff, readNumber]
  cases Numeral.readUInt32 word.toList <;> simp

/-- A word that starts with a digit, a sign or a letter does not start a comment. -/
theorem opensComment_eq_false {c : Char} {rest : List Char} (h : word.toList = c :: rest)
    (hc : c ≠ '#') : opensComment word = false := by
  simpa [opensComment, h] using hc

theorem opensComment_of_spells {n : Nat} (h : Numeral.Spells word.toList n) :
    opensComment word = false := by
  obtain ⟨c, rest, hcons⟩ := List.exists_cons_of_ne_nil h.ne_nil
  refine opensComment_eq_false hcons ?_
  rintro rfl
  exact h.notMem (by decide) (by decide) (hcons ▸ List.mem_cons_self)

theorem numberField_eq_ok_iff {number : UInt32} :
    numberField field words = .ok (number, rest) ↔
      ∃ word, words = word :: rest ∧ Numeral.Spells word.toList number.toNat := by
  simp only [numberField, bind_eq_ok_iff, Prod.exists, wordField_eq_ok_iff, readNumber_eq_ok_iff,
    pure, Except.pure, Except.ok.injEq, Prod.mk.injEq]
  constructor
  · rintro ⟨word, _, ⟨rfl, -⟩, _, h, rfl, rfl⟩
    exact ⟨word, rfl, h⟩
  · rintro ⟨word, rfl, h⟩
    exact ⟨word, rest, ⟨rfl, opensComment_of_spells h⟩, number, h, rfl, rfl⟩

/-! ### Actions -/

theorem toOption_readUInt32_eq_some_iff {text : List Char} {number : UInt32} :
    (Numeral.readUInt32 text).toOption = some number ↔ Numeral.Spells text number.toNat := by
  rw [← Numeral.readUInt32_eq_ok_iff]
  cases Numeral.readUInt32 text <;> simp [Except.toOption]

/-- What letters stand for, when they are small. -/
theorem actionOfLetters_eq_some_iff {letters : List Char} {action : Action} :
    actionOfLetters letters = some action ↔
      action = .accept ∧ (letters = "acc".toList ∨ letters = "accept".toList) ∨
      action = .error ∧ (letters = "err".toList ∨ letters = "error".toList) ∨
      (∃ numeral next, letters = 's' :: numeral ∧ action = .shift next ∧
        Numeral.Spells numeral next.toNat) ∨
      ∃ numeral id, letters = 'r' :: numeral ∧ action = .reduce id ∧
        Numeral.Spells numeral id.toNat := by
  simp only [← toOption_readUInt32_eq_some_iff]
  constructor
  · intro h
    unfold actionOfLetters at h
    split at h
    · exact .inl ⟨(Option.some.inj h).symm, .inl rfl⟩
    · exact .inl ⟨(Option.some.inj h).symm, .inr rfl⟩
    · exact .inr (.inl ⟨(Option.some.inj h).symm, .inl rfl⟩)
    · exact .inr (.inl ⟨(Option.some.inj h).symm, .inr rfl⟩)
    · next numeral =>
        obtain ⟨next, hnext, rfl⟩ := Option.map_eq_some_iff.1 h
        exact .inr (.inr (.inl ⟨numeral, next, rfl, rfl, hnext⟩))
    · next numeral =>
        obtain ⟨id, hid, rfl⟩ := Option.map_eq_some_iff.1 h
        exact .inr (.inr (.inr ⟨numeral, id, rfl, rfl, hid⟩))
    · cases h
  · rintro (⟨rfl, rfl | rfl⟩ | ⟨rfl, rfl | rfl⟩ | ⟨numeral, next, rfl, rfl, hn⟩ |
      ⟨numeral, id, rfl, rfl, hn⟩)
    · rfl
    · rfl
    · rfl
    · rfl
    · rw [actionOfLetters, hn, Option.map_some]
    · rw [actionOfLetters, hn, Option.map_some]

/-- The letters of a word in small form make an action exactly if the word spells it. -/
theorem actionOfLetters_map_toLower_iff {letters : List Char} {action : Action} :
    actionOfLetters (letters.map Char.toLower) = some action ↔ SpellsAction letters action := by
  rw [actionOfLetters_eq_some_iff]
  constructor
  · rintro (⟨rfl, h⟩ | ⟨rfl, h⟩ | ⟨numeral, next, h, rfl, hn⟩ | ⟨numeral, id, h, rfl, hn⟩)
    · exact .accept h
    · exact .error h
    · obtain ⟨letter, numeral', rfl, hletter, rfl⟩ := List.map_eq_cons_iff.1 h
      exact .shift hletter (Numeral.spells_map_toLower.1 hn)
    · obtain ⟨letter, numeral', rfl, hletter, rfl⟩ := List.map_eq_cons_iff.1 h
      exact .reduce hletter (Numeral.spells_map_toLower.1 hn)
  · intro h
    cases h with
    | accept h => exact .inl ⟨rfl, h⟩
    | error h => exact .inr (.inl ⟨rfl, h⟩)
    | shift hletter hn =>
        refine .inr (.inr (.inl ⟨_, _, ?_, rfl, Numeral.spells_map_toLower.2 hn⟩))
        rw [List.map_cons, hletter]
    | reduce hletter hn =>
        refine .inr (.inr (.inr ⟨_, _, ?_, rfl, Numeral.spells_map_toLower.2 hn⟩))
        rw [List.map_cons, hletter]

theorem readAction_eq_ok_iff {action : Action} :
    readAction word = .ok action ↔ SpellsAction word.toList action := by
  rw [← actionOfLetters_map_toLower_iff, readAction]
  cases actionOfLetters (word.toList.map Char.toLower) <;> simp

/-- The first letter of an action, in either case, is none that starts a comment. -/
theorem opensComment_of_map_toLower {c : Char} {rest : List Char}
    (h : word.toList.map Char.toLower = c :: rest) (hc : c ≠ '#') : opensComment word = false := by
  obtain ⟨letter, letters, hword, rfl, -⟩ := List.map_eq_cons_iff.1 h
  refine opensComment_eq_false hword ?_
  rintro rfl
  exact hc rfl

theorem opensComment_of_spellsAction {action : Action} (h : SpellsAction word.toList action) :
    opensComment word = false := by
  rcases actionOfLetters_eq_some_iff.1 (actionOfLetters_map_toLower_iff.2 h) with
    ⟨-, h | h⟩ | ⟨-, h | h⟩ | ⟨_, _, h, -⟩ | ⟨_, _, h, -⟩
  all_goals exact opensComment_of_map_toLower h (by decide)

theorem actionField_eq_ok_iff {action : Action} :
    actionField words = .ok (action, rest) ↔
      ∃ word, words = word :: rest ∧ SpellsAction word.toList action := by
  simp only [actionField, bind_eq_ok_iff, Prod.exists, wordField_eq_ok_iff, readAction_eq_ok_iff,
    pure, Except.pure, Except.ok.injEq, Prod.mk.injEq]
  constructor
  · rintro ⟨word, _, ⟨rfl, -⟩, _, h, rfl, rfl⟩
    exact ⟨word, rfl, h⟩
  · rintro ⟨word, rfl, h⟩
    exact ⟨word, rest, ⟨rfl, opensComment_of_spellsAction h⟩, action, h, rfl, rfl⟩

theorem ne_arrow_of_spells {n : Nat} (h : Numeral.Spells word.toList n) : word ≠ "->" := by
  rintro rfl
  exact h.notMem (c := '-') (by decide) (by decide) List.mem_cons_self

theorem rightHandSideField_eq_ok_iff {rhs : RightHandSide} :
    rightHandSideField words = .ok (rhs, rest) ↔
      (∃ list, words = "->" :: list ∧ rhs = .symbols list ∧ rest = []) ∨
        ∃ word size, words = word :: rest ∧ rhs = .length (UInt32.toNat size) ∧
          Numeral.Spells word.toList size.toNat := by
  simp only [rightHandSideField, bind_eq_ok_iff, Prod.exists, wordField_eq_ok_iff]
  constructor
  · rintro ⟨word, others, ⟨rfl, -⟩, h⟩
    split at h
    · next hword =>
        obtain ⟨rfl, rfl⟩ := Prod.mk.inj (Except.ok.inj h)
        exact .inl ⟨others, hword ▸ rfl, rfl, rfl⟩
    · obtain ⟨size, hsize, h⟩ := bind_eq_ok_iff.1 h
      obtain ⟨rfl, rfl⟩ := Prod.mk.inj (Except.ok.inj h)
      exact .inr ⟨word, size, rfl, rfl, readNumber_eq_ok_iff.1 hsize⟩
  · rintro (⟨list, rfl, rfl, rfl⟩ | ⟨word, size, rfl, rfl, hsize⟩)
    · exact ⟨"->", list, ⟨rfl, by decide⟩, if_pos rfl⟩
    · refine ⟨word, rest, ⟨rfl, opensComment_of_spells hsize⟩, ?_⟩
      rw [if_neg (ne_arrow_of_spells hsize), readNumber_eq_ok_iff.2 hsize]
      rfl

end Fields

/-! ## Lines -/

section Lines

variable {directive : String} {fields rest : List String} {declaration : Declaration}
  {steps : List Declaration} {tables built : Tables} {line : String}

theorem declares_of_readDeclaration
    (h : readDeclaration directive fields = .ok (declaration, rest)) :
    Declares (directive :: fields) declaration rest := by
  unfold readDeclaration at h
  split at h
  · obtain ⟨⟨terminal, rest⟩, readTerminal, h⟩ := bind_eq_ok_iff.1 h
    obtain ⟨rfl, rfl⟩ := Prod.mk.inj (Except.ok.inj h)
    obtain rfl := symbolField_eq_ok_iff.1 readTerminal
    exact .endMarker terminal rest
  · obtain ⟨⟨id, words⟩, readId, h⟩ := bind_eq_ok_iff.1 h
    obtain ⟨⟨lhs, words⟩, readLhs, h⟩ := bind_eq_ok_iff.1 h
    obtain ⟨⟨rhs, rest⟩, readRhs, h⟩ := bind_eq_ok_iff.1 h
    obtain ⟨rfl, rfl⟩ := Prod.mk.inj (Except.ok.inj h)
    obtain ⟨number, rfl, hid⟩ := numberField_eq_ok_iff.1 readId
    obtain rfl := symbolField_eq_ok_iff.1 readLhs
    obtain ⟨list, rfl, rfl, rfl⟩ | ⟨count, size, rfl, rfl, hsize⟩ :=
      rightHandSideField_eq_ok_iff.1 readRhs
    · exact .rule lhs list hid
    · exact .length lhs rest hid hsize
  · obtain ⟨⟨state, words⟩, readState, h⟩ := bind_eq_ok_iff.1 h
    obtain ⟨⟨terminal, words⟩, readTerminal, h⟩ := bind_eq_ok_iff.1 h
    obtain ⟨⟨what, rest⟩, readWhat, h⟩ := bind_eq_ok_iff.1 h
    obtain ⟨rfl, rfl⟩ := Prod.mk.inj (Except.ok.inj h)
    obtain ⟨number, rfl, hstate⟩ := numberField_eq_ok_iff.1 readState
    obtain rfl := symbolField_eq_ok_iff.1 readTerminal
    obtain ⟨word, rfl, hwhat⟩ := actionField_eq_ok_iff.1 readWhat
    exact .action terminal rest hstate hwhat
  · obtain ⟨⟨state, words⟩, readState, h⟩ := bind_eq_ok_iff.1 h
    obtain ⟨⟨nonTerminal, words⟩, readNonTerminal, h⟩ := bind_eq_ok_iff.1 h
    obtain ⟨⟨next, rest⟩, readNext, h⟩ := bind_eq_ok_iff.1 h
    obtain ⟨rfl, rfl⟩ := Prod.mk.inj (Except.ok.inj h)
    obtain ⟨number, rfl, hstate⟩ := numberField_eq_ok_iff.1 readState
    obtain rfl := symbolField_eq_ok_iff.1 readNonTerminal
    obtain ⟨target, rfl, hnext⟩ := numberField_eq_ok_iff.1 readNext
    exact .goto nonTerminal rest hstate hnext
  · cases h

theorem readDeclaration_of_declares (h : Declares (directive :: fields) declaration rest) :
    readDeclaration directive fields = .ok (declaration, rest) := by
  cases h with
  | endMarker terminal rest => rfl
  | rule lhs list hid =>
      refine bind_eq_ok_iff.2 ⟨_, numberField_eq_ok_iff.2 ⟨_, rfl, hid⟩, ?_⟩
      refine bind_eq_ok_iff.2 ⟨_, symbolField_eq_ok_iff.2 rfl, ?_⟩
      refine bind_eq_ok_iff.2 ⟨_, rightHandSideField_eq_ok_iff.2 (.inl ?_), rfl⟩
      exact ⟨list, rfl, rfl, rfl⟩
  | length lhs rest hid hsize =>
      refine bind_eq_ok_iff.2 ⟨_, numberField_eq_ok_iff.2 ⟨_, rfl, hid⟩, ?_⟩
      refine bind_eq_ok_iff.2 ⟨_, symbolField_eq_ok_iff.2 rfl, ?_⟩
      refine bind_eq_ok_iff.2 ⟨_, rightHandSideField_eq_ok_iff.2 (.inr ?_), rfl⟩
      exact ⟨_, _, rfl, rfl, hsize⟩
  | action terminal rest hstate hwhat =>
      refine bind_eq_ok_iff.2 ⟨_, numberField_eq_ok_iff.2 ⟨_, rfl, hstate⟩, ?_⟩
      refine bind_eq_ok_iff.2 ⟨_, symbolField_eq_ok_iff.2 rfl, ?_⟩
      exact bind_eq_ok_iff.2 ⟨_, actionField_eq_ok_iff.2 ⟨_, rfl, hwhat⟩, rfl⟩
  | goto nonTerminal rest hstate hnext =>
      refine bind_eq_ok_iff.2 ⟨_, numberField_eq_ok_iff.2 ⟨_, rfl, hstate⟩, ?_⟩
      refine bind_eq_ok_iff.2 ⟨_, symbolField_eq_ok_iff.2 rfl, ?_⟩
      exact bind_eq_ok_iff.2 ⟨_, numberField_eq_ok_iff.2 ⟨_, rfl, hnext⟩, rfl⟩

/-- The reader of a line accepts the shapes of declarations and nothing else. -/
theorem readDeclaration_eq_ok_iff :
    readDeclaration directive fields = .ok (declaration, rest) ↔
      Declares (directive :: fields) declaration rest :=
  ⟨declares_of_readDeclaration, readDeclaration_of_declares⟩

theorem endOfFields_eq_ok_iff :
    endOfFields rest = .ok () ↔ ∀ word ∈ rest.head?, opensComment word = true := by
  cases rest with
  | nil => simp [endOfFields]
  | cons word rest => cases h : opensComment word <;> simp [endOfFields, h]

/-- No directive starts a comment. -/
theorem Declares.opensComment_directive (h : Declares (directive :: fields) declaration rest) :
    opensComment directive = false := by
  cases h <;> decide

theorem mapError_eq_ok_iff {ε ε' α : Type} {x : Except ε α} {f : ε → ε'} {a : α} :
    x.mapError f = .ok a ↔ x = .ok a := by
  cases x <;> simp [Except.mapError]

theorem lineDeclares_nil_iff : LineDeclares [] steps ↔ steps = [] := by
  constructor
  · intro h
    cases h with
    | blank => rfl
    | declaration declares => cases declares
  · rintro rfl
    exact .blank

theorem lineDeclares_comment_iff (opens : opensComment directive = true) :
    LineDeclares (directive :: fields) steps ↔ steps = [] := by
  constructor
  · intro h
    cases h with
    | comment => rfl
    | declaration declares =>
        rw [declares.opensComment_directive] at opens
        cases opens
  · rintro rfl
    exact .comment fields opens

theorem lineDeclares_declaration_iff (opens : opensComment directive = false) :
    LineDeclares (directive :: fields) steps ↔
      ∃ declaration rest, Declares (directive :: fields) declaration rest ∧
        (∀ word ∈ rest.head?, opensComment word = true) ∧ steps = [declaration] := by
  constructor
  · intro h
    cases h with
    | comment _ opens' =>
        rw [opens] at opens'
        cases opens'
    | declaration declares ends => exact ⟨_, _, declares, ends, rfl⟩
  · rintro ⟨declaration, rest, declares, ends, rfl⟩
    exact .declaration declares ends

/-- A line declares one thing at most. -/
theorem LineDeclares.unique {words : List String} {steps' : List Declaration}
    (h : LineDeclares words steps) (h' : LineDeclares words steps') : steps = steps' := by
  cases words with
  | nil => rw [lineDeclares_nil_iff.1 h, lineDeclares_nil_iff.1 h']
  | cons directive fields =>
      cases opens : opensComment directive with
      | true => rw [(lineDeclares_comment_iff opens).1 h, (lineDeclares_comment_iff opens).1 h']
      | false =>
          obtain ⟨_, _, hd, -, rfl⟩ := (lineDeclares_declaration_iff opens).1 h
          obtain ⟨_, _, hd', -, rfl⟩ := (lineDeclares_declaration_iff opens).1 h'
          cases (readDeclaration_eq_ok_iff.2 hd).symm.trans (readDeclaration_eq_ok_iff.2 hd')
          rfl

/-- A line is applied exactly if it has one of the shapes and what it declares is not
refused. -/
theorem applyLine_eq_ok_iff :
    applyLine tables line = .ok built ↔
      ∃ steps, LineDeclares (words line) steps ∧ tables.declareAll steps = .ok built := by
  unfold applyLine
  cases words line with
  | nil => simp [lineDeclares_nil_iff]
  | cons directive fields =>
      cases opens : opensComment directive with
      | true => simp [opens, lineDeclares_comment_iff opens]
      | false =>
          simp only [opens, Bool.false_eq_true, if_false, lineDeclares_declaration_iff opens]
          constructor
          · intro h
            obtain ⟨⟨declaration, rest⟩, hread, h⟩ := bind_eq_ok_iff.1 h
            obtain ⟨extended, hdeclare, h⟩ := bind_eq_ok_iff.1 h
            -- what is left over is looked at last, when the tables are there already
            obtain ⟨_, hend, h⟩ := bind_eq_ok_iff.1 h
            obtain rfl := Except.ok.inj h
            refine ⟨_, ⟨declaration, rest, readDeclaration_eq_ok_iff.1 hread,
              endOfFields_eq_ok_iff.1 hend, rfl⟩, ?_⟩
            rw [Tables.declareAll_singleton, mapError_eq_ok_iff.1 hdeclare]
          · rintro ⟨_, ⟨declaration, rest, declares, ends, rfl⟩, h⟩
            rw [Tables.declareAll_singleton] at h
            refine bind_eq_ok_iff.2 ⟨_, readDeclaration_eq_ok_iff.2 declares, ?_⟩
            refine bind_eq_ok_iff.2 ⟨_, mapError_eq_ok_iff.2 h, ?_⟩
            exact bind_eq_ok_iff.2 ⟨(), endOfFields_eq_ok_iff.2 ends, rfl⟩

end Lines

/-! ## Texts -/

section Texts

variable {tables built : Tables} {number : Nat}

theorem applyLines_cons_eq_ok_iff {line : String} {rest : List String} :
    applyLines number tables (line :: rest) = .ok built ↔
      ∃ extended, applyLine tables line = .ok extended ∧
        applyLines (number + 1) extended rest = .ok built := by
  rw [applyLines]
  cases applyLine tables line <;> simp

/-- Lines are applied exactly if each of them has one of the shapes and nothing that
they declare is refused. -/
theorem applyLines_eq_ok_iff {list : List String} :
    applyLines number tables list = .ok built ↔
      ∃ steps, List.Forall₂ LineDeclares (list.map words) steps ∧
        tables.declareAll steps.flatten = .ok built := by
  induction list generalizing number tables with
  | nil => simp [applyLines]
  | cons line rest ih =>
      rw [applyLines_cons_eq_ok_iff]
      constructor
      · rintro ⟨extended, hline, hrest⟩
        obtain ⟨first, hfirst, hline⟩ := applyLine_eq_ok_iff.1 hline
        obtain ⟨steps, hsteps, hrest⟩ := ih.1 hrest
        exact ⟨first :: steps, .cons hfirst hsteps,
          Tables.declareAll_append_eq_ok_iff.2 ⟨extended, hline, hrest⟩⟩
      · -- the declarations of the first line come first, whatever their number
        rintro ⟨_, _ | ⟨hfirst, hsteps⟩, h⟩
        obtain ⟨extended, hline, hrest⟩ := Tables.declareAll_append_eq_ok_iff.1 h
        exact ⟨extended, applyLine_eq_ok_iff.2 ⟨_, hfirst, hline⟩, ih.2 ⟨_, hsteps, hrest⟩⟩

/-- A carriage return at the end of a line does not count. -/
theorem applyLines_map_withoutReturn (list later : List String) :
    applyLines number tables (list.map withoutReturn ++ later) =
      applyLines number tables (list ++ later) := by
  induction list generalizing number tables with
  | nil => rfl
  | cons line rest ih =>
      have hline : applyLine tables (withoutReturn line) = applyLine tables line := by
        simp only [applyLine, words_withoutReturn]
      simp only [List.map_cons, List.cons_append, applyLines, hline, ih]

/-- An empty line at the end declares nothing. -/
theorem applyLines_append_empty (list : List String) :
    applyLines number tables (list ++ [""]) = applyLines number tables list := by
  induction list generalizing number tables with
  | nil => rfl
  | cons line rest ih => simp only [List.cons_append, applyLines, ih]

/-- Only the lines of the file count. -/
theorem applyLines_fileLines (text : String) :
    applyLines number tables (fileLines text) = applyLines number tables (lines text) := by
  rw [fileLines, applyLines_map_withoutReturn]
  obtain ⟨front, last, hlines⟩ :=
    (List.eq_nil_or_concat (lines text)).resolve_left (lines_ne_nil text)
  rw [List.concat_eq_append] at hlines
  rw [hlines, List.dropLast_concat, List.getLast?_concat, Option.toList_some]
  by_cases hlast : last = ""
  · subst hlast
    rw [applyLines_append_empty]
    simp
  · have hkept : [last].filter (fun line => !line.isEmpty) = [last] := by simpa using hlast
    rw [hkept]

theorem read_eq_applyLines (text : String) :
    read text = applyLines 1 .empty (fileLines text) := by
  rw [read, applyLines_fileLines]

/-- A text is loaded exactly if each line of the file has one of the shapes and
nothing that the lines declare in their order is refused.  The tables are those that
the declarations build. -/
theorem read_eq_ok_iff_lineDeclares {text : String} :
    read text = .ok tables ↔
      ∃ steps, List.Forall₂ LineDeclares ((fileLines text).map words) steps ∧
        Tables.empty.declareAll steps.flatten = .ok tables := by
  rw [read_eq_applyLines, applyLines_eq_ok_iff]

end Texts

end ShiftReduce.TableFile
