import ShiftReduce.CommandLine.Request
import ShiftReduce.OrderedMap
import ShiftReduce.Proofs.Numerals

/-!
# What a command line asks for

A command line asks for help, or for a parse, or it is misused and asks for nothing
that can be done.  Which of these it is can be told from its sorted arguments, by the
options that are given among them, and there is no fourth case (`asks_cases`).

The arguments are sorted by a reader of options.  It is not fixed here, but it must be
one that refuses an option given twice and that pairs an option with a value exactly if
the option takes one (`OptionReader.Documented`).  Then an option is given at one place
only, and what is looked up is what is there.  `Arguments.read` is such a reader
(`documented_read`).
-/

namespace ShiftReduce.CommandLine

/-! ## Sorted arguments -/

/-- The options have values exactly if they take them. -/
def Valued (flags : List (Flag × Option String)) : Prop :=
  ∀ given ∈ flags, given.2.isSome = given.1.takesValue

namespace Arguments

variable {sorted : Arguments} {flag : Flag} {value : String} {limit : Option Nat}

/-- The option is given. -/
def Gives (sorted : Arguments) (flag : Flag) : Prop := ∃ value, (flag, value) ∈ sorted.flags

/-- What the arguments say about the step limit.  A limit that is given is a numeral of
64 bits. -/
inductive Limits (sorted : Arguments) : Option Nat → Prop where
  | unlimited (absent : ¬ sorted.Gives .maxSteps) : Limits sorted none
  | limited {value : String} {limit : Nat} (given : (.maxSteps, some value) ∈ sorted.flags)
      (spells : Numeral.Spells value.toList limit) (fits : limit < UInt64.size) :
      Limits sorted (some limit)

/-- What counts as a symbol under the options. -/
def mode (sorted : Arguments) : Input.Mode :=
  if sorted.has .characters then .characters else .words

/-- No option is given twice, and an option has a value exactly if it takes one. -/
structure WellFormed (sorted : Arguments) : Prop where
  once : (sorted.flags.map Prod.fst).Nodup
  valued : Valued sorted.flags

theorem has_iff : sorted.has flag = true ↔ sorted.Gives flag := by
  rw [has, decide_eq_true_eq, count, List.countP_pos_iff]
  constructor
  · rintro ⟨given, hmem, hflag⟩
    obtain rfl := of_decide_eq_true hflag
    exact ⟨given.2, hmem⟩
  · rintro ⟨value, hmem⟩
    exact ⟨_, hmem, decide_eq_true rfl⟩

theorem has_eq_false_iff : sorted.has flag = false ↔ ¬ sorted.Gives flag := by
  rw [← has_iff, Bool.not_eq_true]

theorem mode_iff (sorted : Arguments) : sorted.mode = .characters ↔ sorted.Gives .characters := by
  rw [mode, ← has_iff]
  simp

namespace WellFormed

/-- The value that is looked up is the one that is given. -/
theorem value?_eq_some_iff (h : sorted.WellFormed) :
    sorted.value? flag = some value ↔ (flag, some value) ∈ sorted.flags := by
  rw [value?, Option.join_eq_some_iff]
  -- no option comes twice, so the options are a map
  exact OrderedMap.get?_eq_some_iff (m := ⟨sorted.flags, h.once⟩)

/-- An option that takes a value has none only if it is not given. -/
theorem value?_eq_none_iff (h : sorted.WellFormed) (htakes : flag.takesValue = true) :
    sorted.value? flag = none ↔ ¬ sorted.Gives flag := by
  rw [Option.eq_none_iff_forall_ne_some]
  constructor
  · rintro hnone ⟨value?, hmem⟩
    have hsome := (h.valued _ hmem).trans htakes
    obtain ⟨value, rfl⟩ := Option.isSome_iff_exists.1 hsome
    exact hnone value (h.value?_eq_some_iff.2 hmem)
  · intro habsent value hvalue
    exact habsent ⟨_, h.value?_eq_some_iff.1 hvalue⟩

theorem read_limit_eq_ok_iff {text : List Char} {n : Nat} :
    Numeral.read limitBound text = .ok n ↔ Numeral.Spells text n ∧ n < UInt64.size :=
  Numeral.read_eq_ok_iff (by decide)

/-- The limit is read as it is given. -/
theorem readLimit_eq_ok_iff (h : sorted.WellFormed) :
    readLimit sorted = .ok limit ↔ sorted.Limits limit := by
  constructor
  · intro hread
    cases hvalue : sorted.value? .maxSteps with
    | none =>
        simp only [readLimit, hvalue] at hread
        obtain rfl := Except.ok.inj hread
        exact .unlimited ((h.value?_eq_none_iff rfl).1 hvalue)
    | some value =>
        simp only [readLimit, hvalue] at hread
        cases hn : Numeral.read limitBound value.toList with
        | error fault =>
            rw [hn] at hread
            cases hread
        | ok n =>
            rw [hn] at hread
            obtain rfl := Except.ok.inj hread
            obtain ⟨spells, fits⟩ := read_limit_eq_ok_iff.1 hn
            exact .limited (h.value?_eq_some_iff.1 hvalue) spells fits
  · intro hlimits
    cases hlimits with
    | unlimited absent => simp only [readLimit, (h.value?_eq_none_iff rfl).2 absent]
    | limited given spells fits =>
        simp only [readLimit, h.value?_eq_some_iff.2 given, read_limit_eq_ok_iff.2 ⟨spells, fits⟩]
        rfl

/-- The limit is refused exactly if what is given is no numeral of 64 bits. -/
theorem readLimit_eq_error_iff (h : sorted.WellFormed) :
    (∃ fault, readLimit sorted = .error fault) ↔
      ∃ value, (.maxSteps, some value) ∈ sorted.flags ∧
        ∀ limit, Numeral.Spells value.toList limit → UInt64.size ≤ limit := by
  constructor
  · rintro ⟨fault, hread⟩
    cases hvalue : sorted.value? .maxSteps with
    | none =>
        simp only [readLimit, hvalue] at hread
        cases hread
    | some value =>
        refine ⟨value, h.value?_eq_some_iff.1 hvalue, fun limit hspells => ?_⟩
        refine Nat.not_lt.1 fun hlt => ?_
        have hn := read_limit_eq_ok_iff.2 ⟨hspells, hlt⟩
        simp only [readLimit, hvalue, hn] at hread
        cases hread
  · rintro ⟨value, hgiven, hlarge⟩
    simp only [readLimit, h.value?_eq_some_iff.2 hgiven]
    cases hn : Numeral.read limitBound value.toList with
    | error fault => exact ⟨fault, rfl⟩
    | ok n =>
        obtain ⟨hspells, hlt⟩ := read_limit_eq_ok_iff.1 hn
        exact absurd hlt (Nat.not_lt.2 (hlarge n hspells))

end WellFormed

end Arguments

/-- Whatever the reader does not refuse is well formed. -/
def OptionReader.Documented (options : OptionReader) : Prop :=
  ∀ arguments sorted, options arguments = .ok sorted → sorted.WellFormed

/-! ## What is asked for -/

/-- The sorted arguments ask for a parse. -/
structure Arguments.Requests (sorted : Arguments) (request : Request) : Prop where
  help : ¬ sorted.Gives .help
  limit : sorted.Limits request.limit
  free : sorted.free = request.path :: request.inputWords
  mode : request.mode = .characters ↔ sorted.Gives .characters
  printTables : request.printTables = true ↔ sorted.Gives .printTables

/-- The options are valid, and they ask for help. -/
def AsksForHelp (options : OptionReader) (arguments : List String) : Prop :=
  ∃ sorted, options arguments = .ok sorted ∧ sorted.Gives .help

/-- The options are valid, there are a path and no faulty limit, and help is not
asked for. -/
def Asks (options : OptionReader) (arguments : List String) (request : Request) : Prop :=
  ∃ sorted, options arguments = .ok sorted ∧ sorted.Requests request

/-- There is nothing that can be done. -/
inductive Misused (options : OptionReader) (arguments : List String) : Prop where
  | options {error : OptionError} (refused : options arguments = .error error)
  | limit {sorted : Arguments} {value : String} (valid : options arguments = .ok sorted)
      (help : ¬ sorted.Gives .help) (given : (.maxSteps, some value) ∈ sorted.flags)
      (unfit : ∀ limit, Numeral.Spells value.toList limit → UInt64.size ≤ limit)
  | noTables {sorted : Arguments} {limit : Option Nat} (valid : options arguments = .ok sorted)
      (help : ¬ sorted.Gives .help) (limit : sorted.Limits limit) (free : sorted.free = [])

section

variable {options : OptionReader} {arguments : List String} {sorted : Arguments}
  {request : Request}

theorem Arguments.Requests.mode_eq (h : sorted.Requests request) :
    request.mode = sorted.mode := by
  have hmode := h.mode.trans sorted.mode_iff.symm
  cases hm : request.mode <;> cases hm' : sorted.mode <;> simp [hm, hm'] at hmode ⊢

theorem Arguments.Requests.printTables_eq (h : sorted.Requests request) :
    request.printTables = sorted.has .printTables := by
  rw [Bool.eq_iff_iff, h.printTables, Arguments.has_iff]

theorem AsksForHelp.command (h : AsksForHelp options arguments) :
    Command.ofArguments options arguments = .ok .help := by
  obtain ⟨sorted, hread, hhelp⟩ := h
  simp only [Command.ofArguments, hread, Command.ofSorted, Arguments.has_iff.2 hhelp, if_true]

theorem Asks.requests (h : Asks options arguments request)
    (hread : options arguments = .ok sorted) : sorted.Requests request := by
  obtain ⟨other, hother, hrequests⟩ := h
  cases hread.symm.trans hother
  exact hrequests

variable (documented : options.Documented)
include documented

theorem Asks.command (h : Asks options arguments request) :
    Command.ofArguments options arguments = .ok (.parse request) := by
  obtain ⟨sorted, hread, hrequests⟩ := h
  have hhelp := Arguments.has_eq_false_iff.2 hrequests.help
  have hlimit := (documented _ _ hread).readLimit_eq_ok_iff.2 hrequests.limit
  have hmode := hrequests.mode_eq
  rw [Arguments.mode] at hmode
  simp only [Command.ofArguments, hread, Command.ofSorted, hhelp, hlimit, hrequests.free, ← hmode,
    ← hrequests.printTables_eq, Bool.false_eq_true, if_false]

theorem Misused.command (h : Misused options arguments) :
    ∃ error, Command.ofArguments options arguments = .error error := by
  cases h with
  | @options error hread => exact ⟨.options error, by simp only [Command.ofArguments, hread]⟩
  | @limit sorted value hread hhelp hgiven hunfit =>
      have hhelp := Arguments.has_eq_false_iff.2 hhelp
      obtain ⟨fault, hlimit⟩ :=
        (documented _ _ hread).readLimit_eq_error_iff.2 ⟨value, hgiven, hunfit⟩
      refine ⟨.limit fault, ?_⟩
      simp only [Command.ofArguments, hread, Command.ofSorted, hhelp, hlimit, Bool.false_eq_true,
        if_false]
  | noTables hread hhelp hlimit hfree =>
      have hhelp := Arguments.has_eq_false_iff.2 hhelp
      have hlimit := (documented _ _ hread).readLimit_eq_ok_iff.2 hlimit
      refine ⟨.noTables, ?_⟩
      simp only [Command.ofArguments, hread, Command.ofSorted, hhelp, hlimit, hfree,
        Bool.false_eq_true, if_false]

/-- Every command line asks for help, is misused or asks for a parse. -/
theorem asks_cases (arguments : List String) :
    AsksForHelp options arguments ∨ Misused options arguments ∨
      ∃ request, Asks options arguments request := by
  cases hread : options arguments with
  | error error => exact .inr (.inl (.options hread))
  | ok sorted =>
      have hformed := documented _ _ hread
      by_cases hhelp : sorted.Gives .help
      · exact .inl ⟨sorted, hread, hhelp⟩
      cases hlimit : readLimit sorted with
      | error fault =>
          obtain ⟨value, hgiven, hunfit⟩ := hformed.readLimit_eq_error_iff.1 ⟨fault, hlimit⟩
          exact .inr (.inl (.limit hread hhelp hgiven hunfit))
      | ok limit =>
          have hlimits := hformed.readLimit_eq_ok_iff.1 hlimit
          cases hfree : sorted.free with
          | nil => exact .inr (.inl (.noTables hread hhelp hlimits hfree))
          | cons path inputWords =>
              exact .inr (.inr ⟨⟨path, inputWords, _, _, limit⟩, sorted, hread,
                ⟨hhelp, hlimits, hfree, sorted.mode_iff, Arguments.has_iff⟩⟩)

/-- The command is the parse that is asked for. -/
theorem asks_iff : Asks options arguments request ↔
    Command.ofArguments options arguments = .ok (.parse request) := by
  refine ⟨fun h => h.command documented, fun hcommand => ?_⟩
  rcases asks_cases documented arguments with hhelp | hmisused | ⟨other, hasks⟩
  · cases hhelp.command.symm.trans hcommand
  · obtain ⟨error, herror⟩ := hmisused.command documented
    cases herror.symm.trans hcommand
  · cases (hasks.command documented).symm.trans hcommand
    exact hasks

end

/-! ## The reader that is used here -/

/-- The options that an argument gives have values exactly if they take them, and one that
waits for a value takes it. -/
def Reading.Valued : Reading → Prop
  | .free | .endOfOptions => True
  | .given flags => CommandLine.Valued flags
  | .waiting flags last _ => CommandLine.Valued flags ∧ last.takesValue = true

theorem map_eq_ok_iff {ε α β : Type} {result : Except ε α} {f : α → β} {b : β} :
    result.map f = .ok b ↔ ∃ a, result = .ok a ∧ f a = b := by
  cases result <;> simp [Except.map]

section

variable {reading : Reading} {flag : Flag} {value : Option String}
  {flags rest : List (Flag × Option String)}

theorem valued_nil : Valued [] := List.forall_mem_nil _

theorem valued_cons :
    Valued ((flag, value) :: flags) ↔ value.isSome = flag.takesValue ∧ Valued flags := by
  rw [Valued, List.forall_mem_cons, ← Valued]

theorem valued_singleton : Valued [(flag, value)] ↔ value.isSome = flag.takesValue := by
  rw [valued_cons, and_iff_left valued_nil]

theorem valued_append : Valued (flags ++ rest) ↔ Valued flags ∧ Valued rest := by
  rw [Valued, List.forall_mem_append, ← Valued, ← Valued]

theorem Reading.Valued.withFlag (h : reading.Valued) (htakes : flag.takesValue = false) :
    (reading.withFlag flag).Valued := by
  cases reading with
  | free | endOfOptions => exact h
  | given flags => exact valued_cons.2 ⟨htakes.symm, h⟩
  | waiting flags last written => exact ⟨valued_cons.2 ⟨htakes.symm, h.1⟩, h.2⟩

theorem valued_of_readGroup {letters : List Char} (h : readGroup letters = .ok reading) :
    reading.Valued := by
  induction letters generalizing reading with
  | nil =>
      obtain rfl := Except.ok.inj h
      exact valued_nil
  | cons c rest ih =>
      rw [readGroup] at h
      cases hflag : Flag.ofLetter? c with
      | none =>
          simp only [hflag] at h
          cases h
      | some flag =>
          cases htakes : flag.takesValue with
          | true =>
              simp only [hflag, htakes, if_true] at h
              cases rest with
              | nil =>
                  obtain rfl := Except.ok.inj h
                  exact ⟨valued_nil, htakes⟩
              | cons next rest =>
                  obtain rfl := Except.ok.inj h
                  exact valued_singleton.2 htakes.symm
          | false =>
              simp only [hflag, htakes, Bool.false_eq_true, if_false] at h
              obtain ⟨reading, hrest, rfl⟩ := map_eq_ok_iff.1 h
              exact (ih hrest).withFlag htakes

theorem valued_of_readNamed {name : List Char} {text : Option (List Char)}
    (h : readNamed name text = .ok reading) : reading.Valued := by
  unfold readNamed at h
  dsimp only at h
  split at h
  · cases h
  · obtain rfl := Except.ok.inj h
    split
    · next htakes => exact ⟨valued_nil, htakes⟩
    · next htakes => exact valued_singleton.2 (eq_false_of_ne_true htakes).symm
  · split at h
    · next htakes =>
        obtain rfl := Except.ok.inj h
        exact valued_singleton.2 htakes.symm
    · cases h

theorem valued_of_readArgument {argument : String} (h : readArgument argument = .ok reading) :
    reading.Valued := by
  unfold readArgument at h
  split at h
  · obtain rfl := Except.ok.inj h
    trivial
  · split at h
    · exact valued_of_readNamed h
    · exact valued_of_readNamed h
  · exact valued_of_readGroup h
  · obtain rfl := Except.ok.inj h
    trivial

theorem valued_of_scan {arguments : List String} {sorted : Arguments}
    (h : Arguments.scan arguments = .ok sorted) : Valued sorted.flags := by
  fun_induction Arguments.scan arguments generalizing sorted with
  | case1 | case4 =>
      obtain rfl := Except.ok.inj h
      exact valued_nil
  | case2 | case6 => cases h
  | case3 argument rest hfree ih =>
      obtain ⟨scanned, hscan, rfl⟩ := map_eq_ok_iff.1 h
      have hrest := ih hscan
      exact hrest
  | case5 argument rest flags hgiven ih =>
      obtain ⟨scanned, hscan, rfl⟩ := map_eq_ok_iff.1 h
      exact valued_append.2 ⟨valued_of_readArgument hgiven, ih hscan⟩
  | case7 argument flags last written hwaiting value rest ih =>
      obtain ⟨scanned, hscan, rfl⟩ := map_eq_ok_iff.1 h
      obtain ⟨hflags, htakes⟩ := valued_of_readArgument hwaiting
      have hlast : Valued (flags ++ [(last, some value)]) :=
        valued_append.2 ⟨hflags, valued_singleton.2 htakes.symm⟩
      exact valued_append.2 ⟨hlast, ih hscan⟩

theorem Flag.mem_all (flag : Flag) : flag ∈ Flag.all := by
  cases flag <;> decide

theorem Arguments.count_eq (sorted : Arguments) (flag : Flag) :
    sorted.count flag = (sorted.flags.map Prod.fst).count flag := by
  rw [count, List.count_eq_countP, List.countP_map]
  rfl

/-- What is not refused has no option twice. -/
theorem nodup_of_read {arguments : List String} {sorted : Arguments}
    (h : Arguments.read arguments = .ok sorted) :
    Arguments.scan arguments = .ok sorted ∧ (sorted.flags.map Prod.fst).Nodup := by
  unfold Arguments.read at h
  cases hscan : Arguments.scan arguments with
  | error error =>
      rw [hscan] at h
      cases h
  | ok scanned =>
      rw [hscan] at h
      cases hrepeated : Flag.all.find? fun flag => decide (1 < scanned.count flag) with
      | some flag =>
          simp only [hrepeated, bind, Except.bind] at h
          cases h
      | none =>
          simp only [hrepeated, bind, Except.bind] at h
          obtain rfl := Except.ok.inj h
          refine ⟨rfl, List.nodup_iff_count.2 fun flag => ?_⟩
          have hcount := List.find?_eq_none.1 hrepeated flag flag.mem_all
          rw [← scanned.count_eq]
          simpa using hcount

/-- What the reader does not refuse is well formed. -/
theorem documented_read : OptionReader.Documented Arguments.read := by
  intro arguments sorted h
  obtain ⟨hscan, honce⟩ := nodup_of_read h
  exact ⟨honce, valued_of_scan hscan⟩

end

end ShiftReduce.CommandLine
