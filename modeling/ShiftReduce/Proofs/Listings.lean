import ShiftReduce.Proofs.Wording
import ShiftReduce.Tables.Listing

/-!
# Reading a listing

A listing puts symbols between quotes and escapes nothing in them.  A symbol may have a
quote or an arrow in it, or it may be spelled like a part of a title.  If it was loaded,
though, it has no blank in it, and this is enough to read a listing.

A line of the listing has words, and they show an entry at fixed places
(`Listing.readEntry_words`, `Listing.readProduction_words`).  So a line without words ends a
part.  `Listed.read` reads a listing in this way, and it gives back all that was listed
(`Tables.Writable.read_listing`).
-/

namespace ShiftReduce

open ShiftReduce.Text

/-! ## Lines -/

namespace Listing

/-- A number with a mark behind it. -/
def marked (number : UInt32) (mark : String) : String := toString number ++ mark

def quoted (symbol : Symbol) : String := "'" ++ symbol ++ "'"

/-- The words of the line for an entry with a state and a symbol as its key. -/
def entryWords (kind : String) (key : State × Symbol) (value : List String) : List String :=
  "State" :: marked key.1 "," :: kind :: quoted key.2 :: "->" :: value

/-- The words of the line for an action. -/
def actionWords (entry : (State × Symbol) × Action) : List String :=
  entryWords "Symbol" entry.1 [entry.2.text]

/-- The words of the line for a goto. -/
def gotoWords (entry : (State × Symbol) × State) : List String :=
  entryWords "Non-terminal" entry.1 ["State", toString entry.2]

/-- The words of the line for a production. -/
def productionWords (entry : ProductionId × Production) : List String :=
  marked entry.1 ":" :: entry.2.words

theorem actionLine_eq (entry : (State × Symbol) × Action) :
    Tables.actionLine entry = lineOf (actionWords entry) := by
  obtain ⟨⟨state, terminal⟩, action⟩ := entry
  calc Tables.actionLine ((state, terminal), action)
      = "State" ++ " " ++ toString state ++ ("," ++ " " ++ "Symbol" ++ " " ++ "'") ++ terminal ++
          ("'" ++ " " ++ "->" ++ " ") ++ action.text ++ "\n" := rfl
    _ = lineOf (actionWords ((state, terminal), action)) := by
        simp only [lineOf, actionWords, entryWords, marked, quoted, String.intercalate_cons_cons,
          String.intercalate_singleton, String.append_assoc]

theorem gotoLine_eq (entry : (State × Symbol) × State) :
    Tables.gotoLine entry = lineOf (gotoWords entry) := by
  obtain ⟨⟨state, nonTerminal⟩, next⟩ := entry
  calc Tables.gotoLine ((state, nonTerminal), next)
      = "State" ++ " " ++ toString state ++ ("," ++ " " ++ "Non-terminal" ++ " " ++ "'") ++
          nonTerminal ++ ("'" ++ " " ++ "->" ++ " " ++ "State" ++ " ") ++ toString next ++ "\n" :=
        rfl
    _ = lineOf (gotoWords ((state, nonTerminal), next)) := by
        simp only [lineOf, gotoWords, entryWords, marked, quoted, String.intercalate_cons_cons,
          String.intercalate_singleton, String.append_assoc]

theorem productionLine_eq (entry : ProductionId × Production) :
    Tables.productionLine entry = lineOf (productionWords entry) := by
  obtain ⟨id, production⟩ := entry
  calc Tables.productionLine (id, production)
      = toString id ++ (":" ++ " ") ++ production.text ++ "\n" := rfl
    _ = lineOf (productionWords (id, production)) := by
        have hne : production.words ≠ [] := List.cons_ne_nil _ _
        simp only [lineOf, productionWords, marked, String.intercalate_cons_of_ne_nil hne,
          ← Production.text_eq, String.append_assoc]

/-! ### No word has a blank -/

theorem isWord_marked (number : UInt32) {mark : String} (h : IsWord mark) :
    IsWord (marked number mark) :=
  (isWord_of_spells (Numeral.spells_toString_uint32 number)).append h

theorem isWord_quoted {symbol : Symbol} (h : IsWord symbol) : IsWord (quoted symbol) := by
  have hquote : IsWord "'" := by decide
  exact (hquote.append h).append hquote

theorem isWord_entryWords {kind : String} {key : State × Symbol} {value : List String}
    (hkind : IsWord kind) (hsymbol : IsWord key.2) (hvalue : ∀ word ∈ value, IsWord word) :
    ∀ word ∈ entryWords kind key value, IsWord word := by
  have hfixed : IsWord "State" ∧ IsWord "," ∧ IsWord "->" := by decide
  obtain ⟨hstate, hcomma, harrow⟩ := hfixed
  simp only [entryWords, List.forall_mem_cons]
  exact ⟨hstate, isWord_marked _ hcomma, hkind, isWord_quoted hsymbol, harrow, hvalue⟩

theorem isWord_actionWords {entry : (State × Symbol) × Action} (h : IsWord entry.1.2) :
    ∀ word ∈ actionWords entry, IsWord word := by
  refine isWord_entryWords (by decide) h ?_
  rw [List.forall_mem_singleton]
  exact isWord_actionText entry.2

theorem isWord_gotoWords {entry : (State × Symbol) × State} (h : IsWord entry.1.2) :
    ∀ word ∈ gotoWords entry, IsWord word := by
  refine isWord_entryWords (by decide) h ?_
  rw [List.forall_mem_cons, List.forall_mem_singleton]
  exact ⟨by decide, isWord_of_spells (Numeral.spells_toString_uint32 entry.2)⟩

theorem isWord_productionWords {entry : ProductionId × Production} (h : entry.2.Writable) :
    ∀ word ∈ productionWords entry, IsWord word := by
  rw [productionWords, List.forall_mem_cons]
  exact ⟨isWord_marked _ (by decide), h.isWord⟩

/-! ### Parts -/

/-- The parts of a listing, each a list of lines in words. -/
def parts (tables : Tables) : List (List (List String)) :=
  [["ACTION", "TABLE:"] :: tables.actions.byRow.map actionWords,
    ["GOTO", "TABLE:"] :: tables.gotos.byRow.map gotoWords,
    ["PRODUCTIONS:"] :: tables.productions.toList.map productionWords]

theorem map_eq_map_lineOf {α : Type} {text : α → String} {words : α → List String}
    (h : ∀ entry, text entry = lineOf (words entry)) (entries : List α) :
    entries.map text = (entries.map words).map lineOf := by
  rw [List.map_map]
  exact List.map_congr_left fun entry _ => h entry

/-- A line without words stands between two parts. -/
theorem listing_eq (tables : Tables) :
    tables.listing = String.join (([[]].intercalate (parts tables)).map lineOf) := by
  calc tables.listing
      = lineOf ["ACTION", "TABLE:"] ++ String.join (tables.actions.byRow.map Tables.actionLine) ++
          (lineOf [] ++ lineOf ["GOTO", "TABLE:"]) ++
            String.join (tables.gotos.byRow.map Tables.gotoLine) ++
          (lineOf [] ++ lineOf ["PRODUCTIONS:"]) ++
            String.join (tables.productions.toList.map Tables.productionLine) := rfl
    _ = String.join (([[]].intercalate (parts tables)).map lineOf) := by
        rw [map_eq_map_lineOf actionLine_eq, map_eq_map_lineOf gotoLine_eq,
          map_eq_map_lineOf productionLine_eq]
        simp only [parts, List.intercalate_cons_cons, List.intercalate_singleton, List.map_append,
          List.map_cons, List.map_nil, String.join_append, String.join_cons, String.join_nil,
          String.append_empty, String.append_assoc]

/-- Every line of a part has words, and no word has a blank. -/
theorem isWord_parts {tables : Tables} (h : tables.Writable) :
    ∀ part ∈ parts tables, ∀ row ∈ part, row ≠ [] ∧ ∀ word ∈ row, IsWord word := by
  have htitles : ∀ title ∈ [["ACTION", "TABLE:"], ["GOTO", "TABLE:"], ["PRODUCTIONS:"]],
      title ≠ [] ∧ ∀ word ∈ title, IsWord word := by decide
  simp only [List.forall_mem_cons] at htitles
  simp only [parts, List.forall_mem_cons, List.forall_mem_map]
  refine ⟨⟨htitles.1, fun entry hm => ?_⟩, ⟨htitles.2.1, fun entry hm => ?_⟩,
    ⟨htitles.2.2.1, fun entry hm => ?_⟩, nofun⟩
  · exact ⟨List.cons_ne_nil _ _, isWord_actionWords (h.actions entry (OrderedMap.mem_byRow.1 hm))⟩
  · exact ⟨List.cons_ne_nil _ _, isWord_gotoWords (h.gotos entry (OrderedMap.mem_byRow.1 hm))⟩
  · exact ⟨List.cons_ne_nil _ _, isWord_productionWords (h.productions entry hm)⟩

end Listing

/-! ## Reading -/

namespace Listing

def readMarked (word : String) : Option UInt32 :=
  (Numeral.readUInt32 word.toList.dropLast).toOption

def readQuoted (word : String) : Symbol := String.ofList word.toList.tail.dropLast

/-- The entry that the words of a line show, with the value that the last of them show. -/
def readEntry {ν : Type} (readValue : List String → Option ν) :
    List String → Option ((State × Symbol) × ν)
  | _ :: state :: _ :: symbol :: _ :: value => do
    return ((← readMarked state, readQuoted symbol), ← readValue value)
  | _ => none

def readAction : List String → Option ((State × Symbol) × Action) :=
  readEntry fun
    | [action] => (TableFile.readAction action).toOption
    | _ => none

def readGoto : List String → Option ((State × Symbol) × State) :=
  readEntry fun
    | [_, next] => (Numeral.readUInt32 next.toList).toOption
    | _ => none

/-- The number and the text of the production that the words of a line show. -/
def readProduction : List String → Option (ProductionId × String)
  | id :: production => do return (← readMarked id, " ".intercalate production)
  | [] => none

theorem readMarked_marked (number : UInt32) {mark : String} {c : Char} (h : mark.toList = [c]) :
    readMarked (marked number mark) = some number := by
  have hlist : (marked number mark).toList.dropLast = (toString number).toList := by
    rw [marked, String.toList_append, h, List.dropLast_concat]
  rw [readMarked, hlist, TableFile.toOption_readUInt32_eq_some_iff]
  exact Numeral.spells_toString_uint32 number

theorem readQuoted_quoted (symbol : Symbol) : readQuoted (quoted symbol) = symbol := by
  have hlist : (quoted symbol).toList = '\'' :: (symbol.toList ++ ['\'']) := by
    rw [quoted, String.toList_append, String.toList_append]
    rfl
  rw [readQuoted, hlist, List.tail_cons, List.dropLast_concat, String.ofList_toList]

theorem readEntry_words {ν : Type} {readValue : List String → Option ν} (kind : String)
    (key : State × Symbol) {value : List String} {read : ν} (h : readValue value = some read) :
    readEntry readValue (entryWords kind key value) = some (key, read) := by
  have hstate : readMarked (marked key.1 ",") = some key.1 := readMarked_marked _ rfl
  simp only [readEntry, entryWords, hstate, readQuoted_quoted, h]
  rfl

theorem readAction_words (entry : (State × Symbol) × Action) :
    readAction (actionWords entry) = some entry := by
  have haction := TableFile.readAction_eq_ok_iff.2 (spellsAction_text entry.2)
  exact readEntry_words _ entry.1 (congrArg Except.toOption haction)

theorem readGoto_words (entry : (State × Symbol) × State) :
    readGoto (gotoWords entry) = some entry := by
  have hnext := Numeral.readUInt32_eq_ok_iff.2 (Numeral.spells_toString_uint32 entry.2)
  exact readEntry_words _ entry.1 (congrArg Except.toOption hnext)

theorem readProduction_words (entry : ProductionId × Production) :
    readProduction (productionWords entry) = some (entry.1, entry.2.text) := by
  have hid : readMarked (marked entry.1 ":") = some entry.1 := readMarked_marked _ rfl
  simp only [readProduction, productionWords, hid, Production.text_eq]
  rfl

theorem mapM_map_eq_some {α β γ : Type} {shown : α → β} {read : β → Option γ} {what : α → γ}
    (h : ∀ entry, read (shown entry) = some (what entry)) (entries : List α) :
    (entries.map shown).mapM read = some (entries.map what) := by
  rw [List.mapM_map, funext (f := read ∘ shown) h]
  exact List.mapM_pure

end Listing

/-- What a listing shows. -/
structure Listed where
  actions : List ((State × Symbol) × Action)
  gotos : List ((State × Symbol) × State)
  /-- The numbers with the texts of their productions. -/
  productions : List (ProductionId × String)
deriving DecidableEq, Repr

/-- What the listing of the tables shows. -/
def Tables.listed (tables : Tables) : Listed where
  actions := tables.actions.byRow
  gotos := tables.gotos.byRow
  productions := tables.productions.toList.map fun entry => (entry.1, entry.2.text)

namespace Listed

/-- Reads a listing.  A line without words ends a part, and the first line of a part is its
title. -/
def read (text : String) : Option Listed :=
  match ((lines text).map words).splitOn [] with
  | [_ :: actions, _ :: gotos, _ :: productions, _] => do
    return {
      actions := ← actions.mapM Listing.readAction
      gotos := ← gotos.mapM Listing.readGoto
      productions := ← productions.mapM Listing.readProduction }
  | _ => none

end Listed

namespace Tables

variable {tables : Tables}

/-- The empty words at the end stand for what is behind the last line feed. -/
theorem Writable.words_listing (h : tables.Writable) :
    (lines tables.listing).map words = [[]].intercalate (Listing.parts tables ++ [[]]) := by
  have hrows : ∀ row ∈ [[]].intercalate (Listing.parts tables), ∀ word ∈ row, IsWord word := by
    intro row hm
    obtain rfl | ⟨part, hpart, hm⟩ := eq_or_mem_of_mem_intercalate hm
    · nofun
    · exact (Listing.isWord_parts h part hpart row hm).2
  rw [Listing.listing_eq, words_lines_join_lineOf hrows]
  simp [Listing.parts, List.intercalate_cons_cons]

theorem Writable.splitOn_words_listing (h : tables.Writable) :
    ((lines tables.listing).map words).splitOn [] = Listing.parts tables ++ [[]] := by
  rw [h.words_listing]
  -- No part has a line without words in it, so the cuts are between the parts.
  refine List.splitOn_intercalate [] (fun part hm hempty => ?_) (by simp)
  rcases List.mem_append.1 hm with hm | hm
  · exact (Listing.isWord_parts h part hm [] hempty).1 rfl
  · rw [List.mem_singleton.1 hm] at hempty
    cases hempty

/-- A listing of tables that were loaded is read as what it shows. -/
theorem Writable.read_listing (h : tables.Writable) :
    Listed.read tables.listing = some tables.listed := by
  have hactions := Listing.mapM_map_eq_some Listing.readAction_words tables.actions.byRow
  have hgotos := Listing.mapM_map_eq_some Listing.readGoto_words tables.gotos.byRow
  have hproductions :=
    Listing.mapM_map_eq_some Listing.readProduction_words tables.productions.toList
  rw [Listed.read, h.splitOn_words_listing]
  simp only [Listing.parts, List.cons_append, List.nil_append, hactions, hgotos, hproductions,
    List.map_id']
  rfl

theorem map_productionLine (tables : Tables) :
    tables.productions.toList.map productionLine =
      tables.listed.productions.map fun entry => s!"{entry.1}: {entry.2}\n" := by
  rw [listed, List.map_map]
  exact List.map_congr_left fun entry _ => rfl

/-- A listing is made of what it shows. -/
theorem listing_congr {tables' : Tables} (h : tables.listed = tables'.listed) :
    tables.listing = tables'.listing := by
  have hactions : tables.actions.byRow = tables'.actions.byRow := congrArg Listed.actions h
  have hgotos : tables.gotos.byRow = tables'.gotos.byRow := congrArg Listed.gotos h
  unfold listing
  rw [map_productionLine tables, map_productionLine tables', hactions, hgotos, h]

theorem Writable.listing_eq_iff {tables' : Tables} (h : tables.Writable) (h' : tables'.Writable) :
    tables.listing = tables'.listing ↔ tables.listed = tables'.listed := by
  constructor
  · intro he
    rw [← Option.some_inj, ← h.read_listing, ← h'.read_listing, he]
  · exact listing_congr

end Tables

/-- Two tables that were loaded have the same listing exactly if they list the same
entries in the same order.  A production counts as its text here.  The listing can be read,
and what is read answers every look-up for an action or a goto as the tables do. -/
theorem listing_loses_nothing {file file' : String} {tables tables' : Tables}
    (hread : TableFile.read file = .ok tables) (hread' : TableFile.read file' = .ok tables') :
    (tables.listing = tables'.listing ↔
      tables.actions.byRow = tables'.actions.byRow ∧ tables.gotos.byRow = tables'.gotos.byRow ∧
        tables.productions.toList.map (fun entry => (entry.1, entry.2.text)) =
          tables'.productions.toList.map fun entry => (entry.1, entry.2.text)) ∧
    Listed.read tables.listing = some tables.listed ∧
    (∀ state terminal action, tables.action? state terminal = some action ↔
      ((state, terminal), action) ∈ tables.listed.actions) ∧
    ∀ state nonTerminal next, tables.goto? state nonTerminal = some next ↔
      ((state, nonTerminal), next) ∈ tables.listed.gotos := by
  have hw := Tables.writable_of_read hread
  have hiff := hw.listing_eq_iff (Tables.writable_of_read hread')
  refine ⟨hiff.trans (Iff.of_eq (Listed.mk.injEq ..)), hw.read_listing, ?_, ?_⟩
  · intro state terminal action
    exact OrderedMap.get?_eq_some_iff.trans OrderedMap.mem_byRow.symm
  · intro state nonTerminal next
    exact OrderedMap.get?_eq_some_iff.trans OrderedMap.mem_byRow.symm

/-- Symbols that are spelled like the signs of a listing, and two files whose tables differ
in a right-hand side alone. -/
theorem listing_loses_nothing_signs :
    let file := "action 0 '->' s1\naction 0 # acc\ngoto 0 GOTO 1\nprod 1 PRODUCTIONS: ->\n"
    let file' := "prod 1 PRODUCTIONS: -> ()\ngoto +0 GOTO 01 # alike\naction 0 '->' S1\n" ++
      "action 0 # ACCEPT\n"
    let actions := [.action 0 "'->'" (.shift 1), .action 0 "#" .accept]
    let tables := Tables.ofDeclarations
      (actions ++ [.goto 0 "GOTO" 1, .production 1 ⟨"PRODUCTIONS:", .symbols []⟩])
    let tables' := Tables.ofDeclarations
      ([.production 1 ⟨"PRODUCTIONS:", .symbols ["()"]⟩, .goto 0 "GOTO" 1] ++ actions)
    TableFile.read file = .ok tables ∧ TableFile.read file' = .ok tables' ∧
      tables.listing = tables'.listing ∧
      Listed.read tables.listing = some
        { actions := [((0, "'->'"), .shift 1), ((0, "#"), .accept)]
          gotos := [((0, "GOTO"), 1)]
          productions := [(1, "PRODUCTIONS: -> ()")] } := by
  intro file file' actions tables tables'
  have hread : TableFile.read file = .ok tables := by
    unfold file tables actions
    rfl
  have hread' : TableFile.read file' = .ok tables' := by
    unfold file' tables' actions
    rfl
  obtain ⟨hsame, hlisted, -⟩ := listing_loses_nothing hread hread'
  exact ⟨hread, hread', hsame.2 ⟨rfl, rfl, rfl⟩, hlisted⟩

end ShiftReduce
