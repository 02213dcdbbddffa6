import ShiftReduce.CommandLine.Output
import ShiftReduce.Proofs.Requests
import ShiftReduce.Proofs.Symbols

/-!
# How an input is cut into arguments

The free arguments behind the path are joined by spaces and read as one text.  A space
parts the symbols on its two sides, so the symbols of the text are those of the arguments
(`Input.symbols_intercalate`).  Empty arguments add none, and an argument with blanks in it
adds as many as it would add in pieces.

So a command line depends on its free arguments only by the symbols that they have
together.  `Arguments.Regroups` relates sorted arguments with the same options, the same
tables and the same symbols, and they have the same output.

The end-marker is added to the whole and not to an argument, so the law is about the
symbols of a text and not about inputs.
-/

namespace ShiftReduce

open ShiftReduce.Text

/-! ## Joined texts -/

namespace Input

/-- The symbols of texts that are joined by spaces are the symbols of the texts. -/
theorem symbols_intercalate (mode : Mode) : ∀ texts : List String,
    symbols mode (" ".intercalate texts) = texts.flatMap (symbols mode)
  | [] => symbols_empty
  | [text] => by simp
  | text :: next :: rest => by
      have hspace : mode.Parts " " := ⟨by decide, fun _ => by decide⟩
      rw [String.intercalate_cons_cons, symbols_parts hspace,
        symbols_intercalate mode (next :: rest), ← List.flatMap_cons]

/-- The text with a space behind every character. -/
def spread (text : String) : String := String.ofList (text.toList.flatMap fun c => [c, ' '])

theorem splitWords_spread (text : List Char) :
    splitWords (text.flatMap fun c => [c, ' ']) =
      (text.filter fun c => !isBlank c).map fun c => [c] := by
  induction text with
  | nil => exact splitWords_nil
  | cons c rest ih =>
      calc splitWords ((c :: rest).flatMap fun c => [c, ' '])
          = splitWords ([c] ++ ' ' :: rest.flatMap fun c => [c, ' ']) := rfl
        _ = splitWords [c] ++ (rest.filter fun c => !isBlank c).map fun c => [c] := by
            rw [splitWords_append_cons _ _ (by decide), ih]
        _ = ((c :: rest).filter fun c => !isBlank c).map fun c => [c] := by
            -- a blank is put among blanks, and any other character is a word now
            cases hc : isBlank c with
            | true =>
                rw [splitWords_cons hc, splitWords_nil, List.nil_append,
                  List.filter_cons_of_neg (by simp [hc])]
            | false =>
                have hsingle : splitWords [c] = [[c]] :=
                  splitWords_eq_singleton (List.cons_ne_nil _ _) (by simpa using hc)
                rw [hsingle, List.singleton_append, List.filter_cons_of_pos (by simp [hc]),
                  List.map_cons]

/-- The characters of a text are the words of the text with spaces put in. -/
theorem symbols_spread (text : String) :
    symbols .words (spread text) = symbols .characters text := by
  rw [symbols, words, spread, String.toList_ofList, splitWords_spread, List.map_map, symbols]
  exact List.map_congr_left fun c _ => String.singleton_eq_ofList.symm

end Input

/-! ## Arguments with the same symbols -/

namespace CommandLine

variable {sorted other : Arguments} {read : String → Except ReadFailure String}

namespace Arguments

/-- What loading the tables comes to, if a path is given. -/
def tables? (read : String → Except ReadFailure String) (sorted : Arguments) :
    Option (Except TableFile.LoadError Tables) :=
  sorted.free.head?.map fun path => TableFile.load path (read path)

/-- The symbols of the free arguments behind the path, those of one argument behind those
of the argument before it. -/
def symbols (sorted : Arguments) : List Symbol :=
  sorted.free.tail.flatMap (Input.symbols sorted.mode)

/-- The options and the tables are the same, and so are the symbols, however they are cut
into arguments. -/
structure Regroups (read : String → Except ReadFailure String) (sorted other : Arguments) :
    Prop where
  has : ∀ flag, sorted.has flag = other.has flag
  value : ∀ flag, sorted.value? flag = other.value? flag
  tables : sorted.tables? read = other.tables? read
  symbols : sorted.symbols = other.symbols

theorem Requests.symbols_eq {request : Request} (h : sorted.Requests request) :
    sorted.symbols = request.inputWords.flatMap (Input.symbols request.mode) := by
  rw [symbols, h.free, h.mode_eq, List.tail_cons]

end Arguments

/-- The input of a parse has the symbols of its arguments. -/
theorem Request.input_eq (request : Request) (tables : Tables) :
    request.input tables =
      Input.terminate tables.endMarker
        (request.inputWords.flatMap (Input.symbols request.mode)) := by
  rw [input, Input.read, Input.symbols_intercalate]

/-- A parse depends on its tables, its input, its limit and on whether the tables are
printed. -/
theorem Request.outputWithin_congr {request request' : Request}
    {content content' : Except ReadFailure String}
    (hload : TableFile.load request.path content = TableFile.load request'.path content')
    (hinput : ∀ tables, request.input tables = request'.input tables)
    (hlimit : request.limit = request'.limit)
    (hprint : request.printTables = request'.printTables) (filter : Log.Filter)
    (allowance : Nat) :
    request.outputWithin filter content allowance =
      request'.outputWithin filter content' allowance := by
  rw [outputWithin, outputWithin, hload]
  cases TableFile.load request'.path content' with
  | error error => rfl
  | ok tables => simp only [runWithin, listing, hinput, hlimit, hprint]

namespace Arguments.Regroups

variable {invocation : Invocation} {arguments arguments' : List String}
  {request request' : Request}

theorem mode_eq (h : sorted.Regroups read other) : sorted.mode = other.mode := by
  rw [mode, h.has, ← mode]

theorem readLimit_eq (h : sorted.Regroups read other) : readLimit sorted = readLimit other := by
  rw [readLimit, h.value, readLimit]

/-- Either both name tables or none does. -/
theorem free_cases (h : sorted.Regroups read other) :
    (sorted.free = [] ∧ other.free = []) ∨
      ∃ path texts path' texts', sorted.free = path :: texts ∧ other.free = path' :: texts' ∧
        TableFile.load path (read path) = TableFile.load path' (read path') := by
  have htables := h.tables
  rw [tables?, tables?] at htables
  cases hfree : sorted.free with
  | nil =>
      cases hfree' : other.free with
      | nil => exact .inl ⟨rfl, rfl⟩
      | cons path' texts' => simp [hfree, hfree'] at htables
  | cons path texts =>
      cases hfree' : other.free with
      | nil => simp [hfree, hfree'] at htables
      | cons path' texts' =>
          rw [hfree, hfree'] at htables
          exact .inr ⟨path, texts, path', texts', rfl, rfl, Option.some.inj htables⟩

/-- The input is the same, however the symbols are cut into arguments. -/
theorem read_eq (h : sorted.Regroups read other) (endMarker : Symbol) :
    Input.read sorted.mode endMarker (" ".intercalate sorted.free.tail) =
      Input.read other.mode endMarker (" ".intercalate other.free.tail) := by
  rw [Input.read, Input.read, Input.symbols_intercalate, Input.symbols_intercalate,
    ← Arguments.symbols, ← Arguments.symbols, h.symbols]

theorem input_eq (h : sorted.Regroups read other) (hrequest : sorted.Requests request)
    (hrequest' : other.Requests request') (tables : Tables) :
    request.input tables = request'.input tables := by
  rw [request.input_eq, request'.input_eq, ← hrequest.symbols_eq, ← hrequest'.symbols_eq,
    h.symbols]

/-- The output is the same, however the symbols are cut into arguments. -/
theorem outputWithin_eq (h : sorted.Regroups read other)
    (hread : invocation.options arguments = .ok sorted)
    (hread' : invocation.options arguments' = .ok other) (log : String) (allowance : Nat) :
    invocation.outputWithin read log arguments allowance =
      invocation.outputWithin read log arguments' allowance := by
  simp only [Invocation.outputWithin, Command.ofArguments, hread, hread', Command.ofSorted, h.has,
    h.readLimit_eq]
  cases hhelp : other.has .help with
  | true => rfl
  | false =>
      cases hlimit : readLimit other with
      | error fault => rfl
      | ok limit =>
          obtain ⟨hfree, hfree'⟩ | ⟨path, texts, path', texts', hfree, hfree', hload⟩ :=
            h.free_cases
          · simp only [hfree, hfree']
          · simp only [hfree, hfree']
            have hinput (tables : Tables) :
                Request.input ⟨path, texts, other.mode, other.has .printTables, limit⟩ tables =
                  Request.input ⟨path', texts', other.mode, other.has .printTables, limit⟩
                    tables := by
              have hsame := h.read_eq tables.endMarker
              rw [h.mode_eq, hfree, hfree'] at hsame
              exact hsame
            exact congrArg (Option.map _) (Request.outputWithin_congr hload hinput rfl rfl _ _)

end Arguments.Regroups

/-- The input that is read from texts joined by spaces has the symbols of the texts, with
the end-marker added unless it is last.  So sorted arguments with the same options, the same
tables and the same symbols have the same inputs and the same output.  Where the characters
are the symbols, the input is the one that is read in words when a space is put behind each
character. -/
theorem grouping_irrelevant :
    (∀ mode endMarker texts,
      let list := List.flatMap (Input.symbols mode) texts
      Input.read mode endMarker (" ".intercalate texts) =
        if list.getLast? = some endMarker then list else list ++ [endMarker]) ∧
    (∀ read sorted other, Arguments.Regroups read sorted other →
      (∀ endMarker, Input.read sorted.mode endMarker (" ".intercalate sorted.free.tail) =
        Input.read other.mode endMarker (" ".intercalate other.free.tail)) ∧
      (∀ request request', sorted.Requests request → other.Requests request' →
        ∀ tables, request.input tables = request'.input tables) ∧
      ∀ (invocation : Invocation) arguments arguments',
        invocation.options arguments = .ok sorted → invocation.options arguments' = .ok other →
          ∀ log allowance, invocation.outputWithin read log arguments allowance =
            invocation.outputWithin read log arguments' allowance) ∧
    ∀ endMarker text,
      Input.read .characters endMarker text = Input.read .words endMarker (Input.spread text) := by
  refine ⟨fun mode endMarker texts => ?_, fun read sorted other h => ⟨h.read_eq, ?_, ?_⟩,
    fun endMarker text => ?_⟩
  · rw [Input.read, Input.symbols_intercalate, Input.terminate]
  · exact fun request request' hrequest hrequest' => h.input_eq hrequest hrequest'
  · exact fun invocation arguments arguments' hread hread' => h.outputWithin_eq hread hread'
  · rw [Input.read, Input.read, Input.symbols_spread]

/-- Three symbols in three arguments, one of them empty, and in two with blanks around, under
a limit that is given in two ways. -/
theorem grouping_irrelevant_blanks :
    let read := fun _ => .ok "action 0 a s1\naction 1 b s1\n"
    let arguments := ["-n3", "t", "a b", "", "c"]
    let arguments' := ["a/../t", "a", "--max-steps=3", "--", " b\u3000c "]
    let sorted : Arguments := ⟨[(.maxSteps, some "3")], ["t", "a b", "", "c"]⟩
    let other : Arguments := ⟨[(.maxSteps, some "3")], ["a/../t", "a", " b\u3000c "]⟩
    let request : Request := ⟨"t", ["a b", "", "c"], .words, false, some 3⟩
    let request' : Request := ⟨"a/../t", ["a", " b\u3000c "], .words, false, some 3⟩
    Arguments.read arguments = .ok sorted ∧ Arguments.read arguments' = .ok other ∧
      sorted.Regroups read other ∧ sorted.Requests request ∧ other.Requests request' ∧
      request.input .empty = ["a", "b", "c", "$"] ∧ request.input .empty = request'.input .empty ∧
      outputWithin read "trace" arguments 0 = outputWithin read "trace" arguments' 0 := by
  intro read arguments arguments' sorted other request request'
  have hread : Arguments.read arguments = .ok sorted := rfl
  have hread' : Arguments.read arguments' = .ok other := rfl
  have hregroups : sorted.Regroups read other :=
    { has := fun _ => rfl, value := fun _ => rfl, tables := rfl, symbols := by decide }
  have hrequest : sorted.Requests request :=
    ((asks_iff documented_read).2 rfl).requests hread
  have hrequest' : other.Requests request' :=
    ((asks_iff documented_read).2 rfl).requests hread'
  obtain ⟨-, hinput, houtput⟩ := grouping_irrelevant.2.1 read sorted other hregroups
  exact ⟨hread, hread', hregroups, hrequest, hrequest', by decide,
    hinput request request' hrequest hrequest' .empty,
    houtput .standard arguments arguments' hread hread' "trace" 0⟩

end CommandLine

end ShiftReduce
