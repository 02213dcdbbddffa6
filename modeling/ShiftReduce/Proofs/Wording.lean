import ShiftReduce.Proofs.RoundTrip
import ShiftReduce.Run.Transcript

/-!
# The words of what is shown

A production and an event are shown as words with single spaces between them.  No symbol
that was loaded has a blank in it, so the words can be read off the text again
(`Production.words_text`, `Event.words_text`), whatever the symbols are.

The words of a production tell nearly all of it.  `RightHandSide.ShownAlike` lists what
they do not tell.  A symbol can be spelled like the sign for no symbols, and two symbols
like the sign for a number of symbols.
-/

namespace ShiftReduce

open ShiftReduce.Text

/-! ## Lines -/

namespace Text

/-- A line with these words. -/
def lineOf (words : List String) : String := " ".intercalate words ++ "\n"

variable {rows : List (List String)}

theorem lines_join_lineOf (h : ∀ row ∈ rows, ∀ word ∈ row, IsWord word) :
    lines (String.join (rows.map lineOf)) = rows.map (" ".intercalate ·) ++ [""] := by
  have hline : ∀ line ∈ rows.map (" ".intercalate ·), '\n' ∉ line.toList := by
    intro line hm
    obtain ⟨row, hrow, rfl⟩ := List.mem_map.1 hm
    exact newline_notMem_intercalate (h row hrow)
  have hlines := lines_join hline
  rwa [List.map_map] at hlines

/-- Lines that were written in words are read in words, with an empty one behind the last
line feed. -/
theorem words_lines_join_lineOf (h : ∀ row ∈ rows, ∀ word ∈ row, IsWord word) :
    (lines (String.join (rows.map lineOf))).map words = rows ++ [[]] := by
  have hrow : ∀ row ∈ rows, (words ∘ (" ".intercalate ·)) row = row := fun row hm =>
    words_intercalate (h row hm)
  rw [lines_join_lineOf h, List.map_append, List.map_map, List.map_congr_left hrow, List.map_id']
  rfl

end Text

/-! ## Numbers -/

theorem Numeral.toString_inj {m n : Nat} : toString m = toString n ↔ m = n := by
  constructor
  · intro h
    have hdigits : Nat.toDigits 10 m = Nat.toDigits 10 n := by
      rw [← toList_toString, ← toList_toString, h]
    have hvalue := congrArg (fun digits => Nat.ofDigitChars 10 digits 0) hdigits
    simpa only [Nat.ofDigitChars_toDigits (b := 10) (by decide) (by decide)] using hvalue
  · exact fun h => h ▸ rfl

theorem Numeral.toString_uint32_inj {m n : UInt32} : toString m = toString n ↔ m = n :=
  toString_inj.trans UInt32.toNat_inj

/-! ## Productions -/

namespace RightHandSide

/-- The words that a right-hand side is shown in. -/
def words : RightHandSide → List String
  | .symbols [] => ["()"]
  | .symbols list => list
  | .length count => [s!"<{count}", "symbols>"]

theorem text_eq (rhs : RightHandSide) : rhs.text = " ".intercalate rhs.words := by
  cases rhs with
  | symbols list =>
      cases list with
      | nil => rw [words, String.intercalate_singleton, text]
      | cons first rest => rfl
  | length count =>
      rw [words, String.intercalate_cons_cons, String.intercalate_singleton, String.append_assoc]
      rfl

theorem words_ne_nil (rhs : RightHandSide) : rhs.words ≠ [] := by
  cases rhs with
  | symbols list => cases list <;> exact List.cons_ne_nil _ _
  | length count => exact List.cons_ne_nil _ _

/-- Right-hand sides that are shown in the same words. -/
inductive ShownAlike : RightHandSide → RightHandSide → Prop where
  | same (rhs : RightHandSide) : ShownAlike rhs rhs
  | empty : ShownAlike (.symbols []) (.symbols ["()"])
  | parentheses : ShownAlike (.symbols ["()"]) (.symbols [])
  | length (count : Nat) : ShownAlike (.length count) (.symbols [s!"<{count}", "symbols>"])
  | brackets (count : Nat) : ShownAlike (.symbols [s!"<{count}", "symbols>"]) (.length count)

/-- Symbols are shown in their own words, unless there are none. -/
theorem words_symbols_eq_iff {list : List Symbol} {words : List String} :
    (RightHandSide.symbols list).words = words ↔
      list = [] ∧ words = ["()"] ∨ list ≠ [] ∧ words = list := by
  cases list with
  | nil => simp [RightHandSide.words, eq_comm]
  | cons first rest => simp [RightHandSide.words, eq_comm]

theorem words_eq_iff {rhs rhs' : RightHandSide} : rhs.words = rhs'.words ↔ rhs.ShownAlike rhs' := by
  constructor
  · intro h
    cases rhs with
    | symbols list =>
        rcases words_symbols_eq_iff.1 h with ⟨rfl, hwords⟩ | ⟨hne, hwords⟩
        · cases rhs' with
          | symbols list' =>
              rcases words_symbols_eq_iff.1 hwords with ⟨rfl, -⟩ | ⟨-, rfl⟩
              · exact .same _
              · exact .empty
          | length count => cases congrArg List.length hwords
        · cases rhs' with
          | symbols list' =>
              rcases words_symbols_eq_iff.1 hwords with ⟨rfl, rfl⟩ | ⟨-, rfl⟩
              · exact .parentheses
              · exact .same _
          | length count =>
              obtain rfl := hwords
              exact .brackets count
    | length count =>
        cases rhs' with
        | symbols list' =>
            rcases words_symbols_eq_iff.1 h.symm with ⟨-, hwords⟩ | ⟨-, hwords⟩
            · cases congrArg List.length hwords
            · obtain rfl := hwords
              exact .length count
        | length count' =>
            have hnumeral := (String.append_right_inj _).1 (List.cons.inj h).1
            obtain rfl := Numeral.toString_inj.1 hnumeral
            exact .same _
  · intro h
    cases h with
    | same | empty | parentheses | length | brackets => rfl

/-- No word of a right-hand side that can be written has a blank. -/
theorem Writable.isWord {rhs : RightHandSide} (h : rhs.Writable) :
    ∀ word ∈ rhs.words, IsWord word := by
  have hsigns : IsWord "()" ∧ IsWord "symbols>" := by decide
  cases rhs with
  | symbols list =>
      cases list with
      | nil => simpa only [words, List.forall_mem_singleton] using hsigns.1
      | cons first rest => exact h
  | length count =>
      have hnumeral : IsWord s!"<{count}" := isWord_of_toList_cons String.toList_append
        (by decide) (Numeral.spells_toString count)
      rw [words, List.forall_mem_cons, List.forall_mem_singleton]
      exact ⟨hnumeral, hsigns.2⟩

end RightHandSide

namespace Production

/-- The words that a production is shown in. -/
def words (production : Production) : List String :=
  production.lhs :: "->" :: production.rhs.words

theorem text_eq (production : Production) : production.text = " ".intercalate production.words := by
  calc production.text
      = production.lhs ++ (" " ++ "->" ++ " ") ++ production.rhs.text := rfl
    _ = " ".intercalate production.words := by
        rw [words, String.intercalate_cons_cons,
          String.intercalate_cons_of_ne_nil production.rhs.words_ne_nil,
          ← RightHandSide.text_eq]
        simp only [String.append_assoc]

variable {production production' : Production}

theorem Writable.isWord (h : production.Writable) : ∀ word ∈ production.words, IsWord word := by
  rw [words, List.forall_mem_cons, List.forall_mem_cons]
  exact ⟨h.1, by decide, h.2.isWord⟩

/-- The words of a production that was loaded are read off its text. -/
theorem words_text (h : production.Writable) : Text.words production.text = production.words := by
  rw [text_eq, words_intercalate h.isWord]

theorem text_eq_iff (h : production.Writable) (h' : production'.Writable) :
    production.text = production'.text ↔
      production.lhs = production'.lhs ∧ production.rhs.ShownAlike production'.rhs := by
  have hwords : production.text = production'.text ↔ production.words = production'.words := by
    constructor
    · intro he
      rw [← words_text h, he, words_text h']
    · intro he
      rw [text_eq, he, ← text_eq]
  rw [hwords, ← RightHandSide.words_eq_iff]
  simp [words]

end Production

/-! ## Events -/

/-- The words that a reduction shows its production in. -/
def Tables.productionWords (tables : Tables) (id : ProductionId) : List String :=
  match tables.production? id with
  | some production => production.words
  | none => ["production", toString id]

theorem Tables.productionWords_of_defined {tables : Tables} {id : ProductionId}
    {production : Production} (h : tables.production? id = some production) :
    tables.productionWords id = production.words := by
  rw [productionWords, h]

namespace Event

/-- The words that an event is shown in. -/
def words (tables : Tables) : Event → List String
  | .shift symbol next => ["Shift:", symbol, "->", "State", toString next]
  | .reduce id _ => "Reduced" :: "using" :: tables.productionWords id
  | .accept => ["Input", "is", "accepted."]

theorem text_eq (tables : Tables) (event : Event) :
    event.text tables = " ".intercalate (event.words tables) := by
  cases event with
  | shift symbol next =>
      calc (Event.shift symbol next).text tables
          = "Shift:" ++ " " ++ symbol ++ (" " ++ "->" ++ " " ++ "State" ++ " ") ++ toString next :=
            rfl
        _ = " ".intercalate ((Event.shift symbol next).words tables) := by
            simp only [words, String.intercalate_cons_cons, String.intercalate_singleton,
              String.append_assoc]
  | reduce id next =>
      cases hp : tables.production? id with
      | some production =>
          calc (Event.reduce id next).text tables
              = "Reduced" ++ " " ++ "using" ++ " " ++ production.text := by
                rw [text, hp]
                rfl
            _ = " ".intercalate ((Event.reduce id next).words tables) := by
                have hne : production.words ≠ [] := List.cons_ne_nil _ _
                simp only [words, Tables.productionWords_of_defined hp,
                  String.intercalate_cons_cons, String.intercalate_cons_of_ne_nil hne,
                  ← Production.text_eq, String.append_assoc]
      | none =>
          calc (Event.reduce id next).text tables
              = "Reduced" ++ " " ++ "using" ++ " " ++ "production" ++ " " ++ toString id := by
                rw [text, hp]
                rfl
            _ = " ".intercalate ((Event.reduce id next).words tables) := by
                simp only [words, Tables.productionWords, hp, String.intercalate_cons_cons,
                  String.intercalate_singleton, String.append_assoc]
  | accept => rfl

/-- No word of an event has a blank, if its symbol has none. -/
theorem isWord {tables : Tables} (h : tables.Writable) :
    ∀ {event : Event}, (∀ symbol next, event = .shift symbol next → IsWord symbol) →
      ∀ word ∈ event.words tables, IsWord word
  | .shift symbol next, hsymbol => by
      have hnumeral := isWord_of_spells (Numeral.spells_toString_uint32 next)
      simp only [words, List.forall_mem_cons]
      exact ⟨by decide, hsymbol symbol next rfl, by decide, by decide, hnumeral, by simp⟩
  | .reduce id next, _ => by
      rw [words, List.forall_mem_cons, List.forall_mem_cons]
      refine ⟨by decide, by decide, ?_⟩
      cases hp : tables.production? id with
      | some production =>
          rw [Tables.productionWords_of_defined hp]
          exact (h.productions _ (OrderedMap.get?_eq_some_iff.1 hp)).isWord
      | none =>
          have hnumeral := isWord_of_spells (Numeral.spells_toString_uint32 id)
          rw [Tables.productionWords, hp]
          simp only [List.forall_mem_cons]
          exact ⟨by decide, hnumeral, by simp⟩
  | .accept, _ => by
      show ∀ word ∈ ["Input", "is", "accepted."], IsWord word
      decide

/-- Events that are shown in the same words.  A reduction does not show the state that it
leads to. -/
inductive ShownAlike (tables : Tables) : Event → Event → Prop where
  | shift (symbol : Symbol) (next : State) :
      ShownAlike tables (.shift symbol next) (.shift symbol next)
  | reduce {id id' : ProductionId} (next next' : State)
      (same : tables.productionWords id = tables.productionWords id') :
      ShownAlike tables (.reduce id next) (.reduce id' next')
  | accept : ShownAlike tables .accept .accept

/-- The first word tells what kind of event it is, and the others tell the rest. -/
theorem words_eq_iff {tables : Tables} {event event' : Event} :
    event.words tables = event'.words tables ↔ event.ShownAlike tables event' := by
  constructor
  · intro h
    cases event with
    | shift symbol next =>
        cases event' with
        | shift symbol' next' =>
            simp only [words, List.cons.injEq, Numeral.toString_uint32_inj, true_and,
              and_true] at h
            obtain ⟨rfl, rfl⟩ := h
            exact .shift symbol next
        | reduce | accept => simp [words] at h
    | reduce id next =>
        cases event' with
        | reduce id' next' =>
            simp only [words, List.cons.injEq, true_and] at h
            exact .reduce next next' h
        | shift | accept => simp [words] at h
    | accept =>
        cases event' with
        | accept => exact .accept
        | shift | reduce => simp [words] at h
  · intro h
    cases h with
    | shift symbol next => rfl
    | reduce next next' same => rw [words, words, same]
    | accept => rfl

end Event

end ShiftReduce
