import ShiftReduce.Proofs.Steps
import ShiftReduce.Proofs.Symbols
import ShiftReduce.Proofs.Wording

/-!
# What a transcript tells

A transcript shows no production number and not the state that a reduction leads to.
They can be told all the same if no two productions have the same text.  The text of a
production tells its number then, and the state follows by replaying the stack.

`Run.Recorded` replays a history.  It says which stack the events lead to.  Every step of
a run keeps to it (`Run.OnRecord.step`), and a history and its stack are determined by the
words of the events (`Run.Recorded.unique`).

That the words can be read off a transcript rests on the blanks.  Neither tables that were
loaded nor an input has a symbol with a blank in it.
-/

namespace ShiftReduce

open ShiftReduce.Text

/-! ## Replaying a history -/

/-- No two productions have the same text. -/
def Tables.DistinctTexts (tables : Tables) : Prop :=
  ∀ id id' production production', tables.production? id = some production →
    tables.production? id' = some production' → production.text = production'.text → id = id'

instance : DecidablePred Tables.DistinctTexts := fun tables =>
  decidable_of_iff
    (∀ entry ∈ tables.productions.toList, ∀ entry' ∈ tables.productions.toList,
      entry.2.text = entry'.2.text → entry.1 = entry'.1)
    ⟨fun h id id' production production' hp hp' =>
        h (id, production) (OrderedMap.get?_eq_some_iff.1 hp) (id', production')
          (OrderedMap.get?_eq_some_iff.1 hp'),
      fun h entry hm entry' hm' =>
        h entry.1 entry'.1 entry.2 entry'.2 (OrderedMap.get?_eq_some_iff.2 hm)
          (OrderedMap.get?_eq_some_iff.2 hm')⟩

theorem Tables.DistinctTexts.eq_of_words {tables : Tables} (h : tables.DistinctTexts)
    {id id' : ProductionId} {production production' : Production}
    (hp : tables.production? id = some production)
    (hp' : tables.production? id' = some production')
    (he : tables.productionWords id = tables.productionWords id') : id = id' := by
  rw [productionWords_of_defined hp, productionWords_of_defined hp'] at he
  refine h id id' production production' hp hp' ?_
  rw [Production.text_eq, he, ← Production.text_eq]

namespace Run

variable {tables : Tables} {run next : Run} {outcome : Outcome}
variable {history history' : List Event} {stack stack' : List State}

/-- The stack that a history leads to.  The history has its latest event first. -/
inductive Recorded (tables : Tables) : List Event → List State → Prop where
  | start : Recorded tables [] [startState]
  | shift {history : List Event} {stack : List State} {symbol : Symbol} {next : State}
      (record : Recorded tables history stack) (word : IsWord symbol) :
      Recorded tables (.shift symbol next :: history) (next :: stack)
  | reduce {history : List Event} {stack : List State} {id : ProductionId}
      {production : Production} {exposed : State} {below : List State} {next : State}
      (record : Recorded tables history stack)
      (defined : tables.production? id = some production)
      (popped : stack.drop production.size = exposed :: below)
      (goto : tables.goto? exposed production.lhs = some next) :
      Recorded tables (.reduce id next :: history) (next :: exposed :: below)
  | accept {history : List Event} {stack : List State} (record : Recorded tables history stack) :
      Recorded tables (.accept :: history) stack

/-- What holds of a run at all times.  A reduction that fails may cut the stack of the run,
but then the run is finished. -/
structure OnRecord (tables : Tables) (run : Run) : Prop where
  unread : ∀ symbol ∈ run.unread, IsWord symbol
  recorded : ∃ stack, Recorded tables run.history stack ∧ (run.finished = false → run.stack = stack)

namespace OnRecord

theorem start {input : List Symbol} (h : ∀ symbol ∈ input, IsWord symbol) :
    OnRecord tables { unread := input } where
  unread := h
  recorded := ⟨[startState], .start, fun _ => rfl⟩

theorem step (h : OnRecord tables run) (hf : run.finished = false)
    (hs : run.Step tables outcome next) : OnRecord tables next := by
  obtain ⟨stack, hrecord, hstack⟩ := h.recorded
  obtain rfl := hstack hf
  cases hs with
  | shift hu ha =>
      have hwords := h.unread
      rw [hu, List.forall_mem_cons] at hwords
      exact ⟨hwords.2, _, .shift hrecord hwords.1, fun _ => rfl⟩
  | reduce hu ha hp hd hg => exact ⟨h.unread, _, .reduce hrecord hp hd hg, fun _ => rfl⟩
  | accept hu ha => exact ⟨h.unread, _, .accept hrecord, fun _ => rfl⟩
  | pastEnd hu => exact ⟨h.unread, _, hrecord, fun _ => rfl⟩
  | unexpected hu ha => exact ⟨h.unread, _, hrecord, fun _ => rfl⟩
  | defect hu ha hfault => exact ⟨h.unread, _, hrecord, nofun⟩

theorem after (h : OnRecord tables run) (count : Nat) :
    OnRecord tables (run.after tables count) := by
  induction count with
  | zero => exact h
  | succ count ih =>
      rcases step_after_cases tables count run with ⟨hf, hs⟩ | ⟨-, -, hafter⟩
      · exact ih.step hf hs
      · rw [hafter]
        exact ih

end OnRecord

/-! ## The words of a history -/

theorem Recorded.isWord (h : Recorded tables history stack) (hw : tables.Writable) :
    ∀ event ∈ history, ∀ word ∈ event.words tables, IsWord word := by
  induction h with
  | start => nofun
  | shift record word ih =>
      rw [List.forall_mem_cons]
      refine ⟨Event.isWord hw fun symbol next he => ?_, ih⟩
      cases he
      exact word
  | reduce record defined popped goto ih =>
      rw [List.forall_mem_cons]
      exact ⟨Event.isWord hw nofun, ih⟩
  | accept record ih =>
      rw [List.forall_mem_cons]
      exact ⟨Event.isWord hw nofun, ih⟩

/-- If no two productions have the same text, the words of a history determine it and the
stack that it leads to. -/
theorem Recorded.unique (hdistinct : tables.DistinctTexts)
    (h : Recorded tables history stack) (h' : Recorded tables history' stack')
    (he : history.map (Event.words tables) = history'.map (Event.words tables)) :
    history = history' ∧ stack = stack' := by
  induction h generalizing history' stack' with
  | start =>
      obtain rfl := List.map_eq_nil_iff.1 he.symm
      cases h' with
      | start => exact ⟨rfl, rfl⟩
  | shift record word ih =>
      obtain ⟨event, rest, rfl, halike, hrest⟩ := List.map_eq_cons_iff.1 he.symm
      cases Event.words_eq_iff.1 halike with
      | shift symbol next =>
          cases h' with
          | shift record' word' =>
              obtain ⟨rfl, rfl⟩ := ih record' hrest.symm
              exact ⟨rfl, rfl⟩
  | reduce record hp hd hg ih =>
      obtain ⟨event, rest, rfl, halike, hrest⟩ := List.map_eq_cons_iff.1 he.symm
      cases Event.words_eq_iff.1 halike with
      | reduce next next' hsame =>
          cases h' with
          | reduce record' hp' hd' hg' =>
              obtain ⟨rfl, rfl⟩ := ih record' hrest.symm
              -- The same production on the same stack exposes the same state.
              obtain rfl := hdistinct.eq_of_words hp' hp hsame
              obtain rfl := Option.some.inj (hp.symm.trans hp')
              obtain ⟨rfl, rfl⟩ := List.cons.inj (hd.symm.trans hd')
              obtain rfl := Option.some.inj (hg.symm.trans hg')
              exact ⟨rfl, rfl⟩
  | accept record ih =>
      obtain ⟨event, rest, rfl, halike, hrest⟩ := List.map_eq_cons_iff.1 he.symm
      cases Event.words_eq_iff.1 halike with
      | accept =>
          cases h' with
          | accept record' =>
              obtain ⟨rfl, rfl⟩ := ih record' hrest.symm
              exact ⟨rfl, rfl⟩

end Run

/-! ## Transcripts -/

section Lines

variable {tables : Tables} {events events' : List Event}

theorem transcript_eq (tables : Tables) (events : List Event) :
    transcript tables events = String.join ((events.map (Event.words tables)).map lineOf) := by
  rw [transcript, List.map_map]
  refine congrArg String.join (List.map_congr_left fun event _ => ?_)
  rw [Function.comp_apply, lineOf, Event.text_eq]

theorem isWord_map_words (h : ∀ event ∈ events, ∀ word ∈ event.words tables, IsWord word) :
    ∀ row ∈ events.map (Event.words tables), ∀ word ∈ row, IsWord word := by
  intro row hm
  obtain ⟨event, hevent, rfl⟩ := List.mem_map.1 hm
  exact h event hevent

/-- Every line of a transcript shows one event.  The last line feed ends the last of them. -/
theorem lines_transcript (h : ∀ event ∈ events, ∀ word ∈ event.words tables, IsWord word) :
    Text.lines (transcript tables events) = events.map (Event.text tables) ++ [""] := by
  rw [transcript_eq, lines_join_lineOf (isWord_map_words h), List.map_map]
  refine congrArg (· ++ [""]) (List.map_congr_left fun event _ => ?_)
  rw [Function.comp_apply, Event.text_eq]

/-- The words of the events can be read off the transcript. -/
theorem map_words_of_transcript_eq
    (h : ∀ event ∈ events, ∀ word ∈ event.words tables, IsWord word)
    (h' : ∀ event ∈ events', ∀ word ∈ event.words tables, IsWord word)
    (he : transcript tables events = transcript tables events') :
    events.map (Event.words tables) = events'.map (Event.words tables) := by
  have hrows := congrArg (fun text => (Text.lines text).map Text.words) he
  simp only [transcript_eq, words_lines_join_lineOf (isWord_map_words h),
    words_lines_join_lineOf (isWord_map_words h')] at hrows
  exact List.append_cancel_right hrows

end Lines

/-- A run on an input that was read for the tables, after any number of steps. -/
def Run.Reached (tables : Tables) (run : Run) : Prop :=
  ∃ mode text begun count,
    Run.start tables (Input.read mode tables.endMarker text) = .ok begun ∧
      run = begun.after tables count

theorem Run.OnRecord.of_reached {tables : Tables} {run : Run} (hw : tables.Writable)
    (h : run.Reached tables) : OnRecord tables run := by
  obtain ⟨mode, text, begun, count, hstart, rfl⟩ := h
  obtain ⟨-, rfl⟩ := Run.start_eq_ok_iff.1 hstart
  exact (OnRecord.start fun symbol hm => Input.isWord_of_mem_read hw.endMarker hm).after count

theorem Run.OnRecord.isWord {tables : Tables} {run : Run} (hw : tables.Writable)
    (h : OnRecord tables run) : ∀ event ∈ run.events, ∀ word ∈ event.words tables, IsWord word := by
  obtain ⟨stack, hrecord, -⟩ := h.recorded
  exact fun event hm => hrecord.isWord hw event (List.mem_reverse.1 hm)

/-- A transcript of a run has a line for each event.  The text of a production that was
loaded tells its left-hand side, and its right-hand side but for the signs that symbols may
be spelled like.  So if no two productions of the tables have the same text, the transcript
of a run determines its events, the production numbers and the states among them. -/
theorem transcript_tells_run {file : String} {tables : Tables}
    (hread : TableFile.read file = .ok tables) :
    (∀ mode text, ∃ run, Run.start tables (Input.read mode tables.endMarker text) = .ok run ∧
      ∀ count, Text.lines (transcript tables (run.after tables count).events) =
        (run.after tables count).events.map (Event.text tables) ++ [""]) ∧
    (∀ file' tables', TableFile.read file' = .ok tables' →
      ∀ id id' production production', tables.production? id = some production →
        tables'.production? id' = some production' →
          (production.text = production'.text ↔
            production.lhs = production'.lhs ∧ production.rhs.ShownAlike production'.rhs)) ∧
    (tables.DistinctTexts → ∀ run run', Run.Reached tables run → Run.Reached tables run' →
      transcript tables run.events = transcript tables run'.events → run.events = run'.events) := by
  have hw := Tables.writable_of_read hread
  refine ⟨fun mode text => ?_, ?_, ?_⟩
  · have hstart := Run.start_eq_ok_iff.2 ⟨Input.getLast?_read mode tables.endMarker text, rfl⟩
    refine ⟨_, hstart, fun count => lines_transcript ?_⟩
    exact (Run.OnRecord.of_reached hw ⟨mode, text, _, count, hstart, rfl⟩).isWord hw
  · intro file' tables' hread' id id' production production' hp hp'
    have hw' := Tables.writable_of_read hread'
    exact Production.text_eq_iff (hw.productions _ (OrderedMap.get?_eq_some_iff.1 hp))
      (hw'.productions _ (OrderedMap.get?_eq_some_iff.1 hp'))
  · intro hdistinct run run' hreached hreached' he
    have hrun := Run.OnRecord.of_reached hw hreached
    have hrun' := Run.OnRecord.of_reached hw hreached'
    have hwords := map_words_of_transcript_eq (hrun.isWord hw) (hrun'.isWord hw) he
    obtain ⟨stack, hrecord, -⟩ := hrun.recorded
    obtain ⟨stack', hrecord', -⟩ := hrun'.recorded
    rw [Run.events, Run.events, List.map_reverse, List.map_reverse, List.reverse_inj] at hwords
    rw [Run.events, (hrecord.unique hdistinct hrecord' hwords).1, ← Run.events]

/-- A production that is spelled like one with a number of symbols, and two runs that read
the same symbols from different texts. -/
theorem transcript_tells_run_spelledAlike :
    let file := "prod 1 S -> x\nprod 2 S -> <1 symbols>\naction 0 x s2\naction 2 $ r1\n" ++
      "action 1 $ acc\ngoto 0 S 1\n"
    let tables := Tables.ofDeclarations
      [.production 1 ⟨"S", .symbols ["x"]⟩, .production 2 ⟨"S", .symbols ["<1", "symbols>"]⟩,
        .action 0 "x" (.shift 2), .action 2 "$" (.reduce 1), .action 1 "$" .accept,
        .goto 0 "S" 1]
    let other := Tables.ofDeclarations [.production 7 ⟨"S", .length 1⟩]
    let begun : Run := { unread := Input.read .words tables.endMarker "x" }
    let begun' : Run := { unread := Input.read .characters tables.endMarker " x\n$" }
    TableFile.read file = .ok tables ∧ TableFile.read "prod 7 S 1" = .ok other ∧
      (⟨"S", .symbols ["<1", "symbols>"]⟩ : Production).text =
        (⟨"S", .length 1⟩ : Production).text ∧
      tables.DistinctTexts ∧ Run.Reached tables (begun.after tables 3) ∧
      Run.Reached tables (begun'.after tables 9) ∧
      transcript tables (begun.after tables 3).events =
        transcript tables (begun'.after tables 9).events ∧
      (begun.after tables 3).events = (begun'.after tables 9).events := by
  intro file tables other begun begun'
  have hread : TableFile.read file = .ok tables := by
    unfold file tables
    rfl
  have hread' : TableFile.read "prod 7 S 1" = .ok other := rfl
  have hdistinct : tables.DistinctTexts := by decide
  have hreached : Run.Reached tables (begun.after tables 3) :=
    ⟨.words, "x", begun, 3, Run.start_eq_ok_iff.2 ⟨Input.getLast?_read .., rfl⟩, rfl⟩
  have hreached' : Run.Reached tables (begun'.after tables 9) :=
    ⟨.characters, " x\n$", begun', 9, Run.start_eq_ok_iff.2 ⟨Input.getLast?_read .., rfl⟩, rfl⟩
  have htranscript : transcript tables (begun.after tables 3).events =
      transcript tables (begun'.after tables 9).events := by
    unfold begun begun' tables
    rfl
  obtain ⟨-, htext, hevents⟩ := transcript_tells_run hread
  have halike := htext _ other hread' 2 7 _ _ rfl rfl
  exact ⟨hread, hread', halike.2 ⟨rfl, .brackets 1⟩, hdistinct, hreached, hreached', htranscript,
    hevents hdistinct _ _ hreached hreached' htranscript⟩

end ShiftReduce
