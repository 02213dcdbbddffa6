import ShiftReduce.Proofs.Completeness
import ShiftReduce.Proofs.Format
import ShiftReduce.Proofs.Resuming

/-!
# The reference tables

The reference grammar is `S -> A A`, `A -> a A`, `A -> b`.  Its sentences are two
*halves*, each some `a` and a `b`, with the end-marker behind them.  The tables of the
file `Reference.file` decide this language on every input (`Reference.decides`).  An
input that starts with a sentence is accepted at the first end-marker.  Every other
input is refused at the first symbol that no sentence can have there, although
reductions may come before the refusal.

A half is read by the same steps from any of the states 0, 2 and 3, since these *open* a
half (`Reference.Opens`): they shift `a` and `b` alike and shift nothing else.  Only the
goto for `A` differs.  So the first half, the second half and what is left of a half
after an `a` are one case, and the proof is by induction on the number of `a`.
-/

namespace ShiftReduce

def Event.isReduce : Event → Bool
  | .reduce .. => true
  | .shift .. | .accept => false

/-! ## What a stretch comes to -/

namespace Run

variable {tables : Tables} {run last : Run} {word : List Symbol} {pushed : List State}
  {events : List Event} {answer : Except ParseError Trace}

/-- What a run comes to after a stretch is what it comes to before it. -/
theorem Stretch.comesTo (h : Stretch tables run word pushed events last)
    (hlast : last.ComesTo tables answer) : run.ComesTo tables answer := by
  obtain ⟨count, hcount⟩ := h.advance
  obtain ⟨allowance, hanswer⟩ := hlast
  refine ⟨count + allowance, ?_⟩
  rw [answerWithin, advance_add, hcount]
  exact hanswer

theorem comesTo_unexpectedSymbol {symbol : Symbol} {rest : List Symbol}
    (hf : run.finished = false) (hu : run.unread = symbol :: rest)
    (ha : tables.action? run.top symbol = none) :
    run.ComesTo tables (.error (.unexpectedSymbol run.top symbol run.position)) := by
  have hbefore : ∀ k < 0, run.outcome tables k = .running := nofun
  exact comesTo_of_failed hbefore
    (congrArg Prod.fst ((Step.unexpected hu (.inr ha)).step_eq hf))

theorem comesTo_accept {symbol : Symbol} {rest : List Symbol} (hf : run.finished = false)
    (hu : run.unread = symbol :: rest) (ha : tables.action? run.top symbol = some .accept) :
    run.ComesTo tables (.ok run.accept.trace) := by
  have hs := (Step.accept hu ha).step_eq hf
  have hbefore : ∀ k < 0, run.outcome tables k = .running := nofun
  have hcomes := comesTo_of_accepted hbefore (congrArg Prod.fst hs)
  rwa [show run.after tables (0 + 1) = run.accept from congrArg Prod.snd hs] at hcomes

/-- The record of an accepting run that begins with the input and ends behind a
stretch. -/
theorem Stretch.accept_trace {input : List Symbol}
    (h : Stretch tables { unread := input } word pushed events last) :
    last.accept.trace = ⟨events ++ [.accept], startState :: pushed.reverse, word.length⟩ := by
  have hevents : last.accept.events = events ++ [.accept] := by rw [accept_events, h.events]; rfl
  have hstack : last.accept.stack.reverse = startState :: pushed.reverse := by
    rw [show last.accept.stack = pushed ++ [startState] from h.stack]
    exact List.reverse_append
  have hposition : last.accept.position = word.length := h.position.trans (Nat.zero_add _)
  rw [trace, hevents, hstack, hposition]

end Run

namespace Reference

/-! ## The tables -/

/-- The lines of a table file. -/
def lines : List String :=
  ["# SLR tables of", "#", "#   S' = S", "#   S  = A A", "#   A  = a A | b", "", "eof $", "",
    "prod 1 S -> A A", "prod 2 A -> a A", "prod 3 A -> b", "", "action 0 a s3", "action 0 b s4",
    "action 1 $ acc", "action 2 a s3", "action 2 b s4", "action 3 a s3", "action 3 b s4",
    "action 4 a r3", "action 4 b r3", "action 4 $ r3", "action 5 $ r1", "action 6 a r2",
    "action 6 b r2", "action 6 $ r2", "", "goto 0 S 1", "goto 0 A 2", "goto 2 A 5",
    "goto 3 A 6"]

/-- The table file, with a line feed behind each of its lines. -/
def file : String := String.join (lines.map (· ++ "\n"))

/-- The tables that the file declares. -/
def tables : Tables :=
  .ofDeclarations
    [.endMarker "$",
      .production 1 ⟨"S", .symbols ["A", "A"]⟩, .production 2 ⟨"A", .symbols ["a", "A"]⟩,
      .production 3 ⟨"A", .symbols ["b"]⟩,
      .action 0 "a" (.shift 3), .action 0 "b" (.shift 4), .action 1 "$" .accept,
      .action 2 "a" (.shift 3), .action 2 "b" (.shift 4), .action 3 "a" (.shift 3),
      .action 3 "b" (.shift 4), .action 4 "a" (.reduce 3), .action 4 "b" (.reduce 3),
      .action 4 "$" (.reduce 3), .action 5 "$" (.reduce 1), .action 6 "a" (.reduce 2),
      .action 6 "b" (.reduce 2), .action 6 "$" (.reduce 2),
      .goto 0 "S" 1, .goto 0 "A" 2, .goto 2 "A" 5, .goto 3 "A" 6]

theorem read_file : TableFile.read file = .ok tables := by
  have hlines : Text.lines file = lines ++ [""] := Text.lines_join (by decide)
  rw [TableFile.read, hlines, TableFile.applyLines_append_empty]
  rfl

variable {state next : State} {symbol : Symbol}

theorem mem_of_action {action : Action} (h : tables.action? state symbol = some action) :
    ((state, symbol), action) ∈
      [((0, "a"), .shift 3), ((0, "b"), .shift 4), ((1, "$"), .accept), ((2, "a"), .shift 3),
        ((2, "b"), .shift 4), ((3, "a"), .shift 3), ((3, "b"), .shift 4), ((4, "a"), .reduce 3),
        ((4, "b"), .reduce 3), ((4, "$"), .reduce 3), ((5, "$"), .reduce 1),
        ((6, "a"), .reduce 2), ((6, "b"), .reduce 2), ((6, "$"), .reduce 2)] :=
  OrderedMap.get?_eq_some_iff.1 h

/-- The state begins a half, and it has the next one as the goto for the half. -/
structure Opens (state next : State) : Prop where
  a : tables.action? state "a" = some (.shift 3)
  b : tables.action? state "b" = some (.shift 4)
  other : ∀ symbol, symbol ≠ "a" → symbol ≠ "b" → tables.action? state symbol = none
  goto : tables.goto? state "A" = some next

theorem action_eq_none (h : ∀ action, tables.action? state symbol ≠ some action) :
    tables.action? state symbol = none := Option.eq_none_iff_forall_ne_some.2 h

theorem action_other (hstate : state = 0 ∨ state = 2 ∨ state = 3) (symbol : Symbol)
    (ha : symbol ≠ "a") (hb : symbol ≠ "b") : tables.action? state symbol = none := by
  refine action_eq_none fun action h => ?_
  rcases hstate with rfl | rfl | rfl
  · simpa [ha, hb] using mem_of_action h
  · simpa [ha, hb] using mem_of_action h
  · simpa [ha, hb] using mem_of_action h

theorem opens_first : Opens 0 2 := ⟨rfl, rfl, action_other (.inl rfl), rfl⟩

theorem opens_second : Opens 2 5 := ⟨rfl, rfl, action_other (.inr (.inl rfl)), rfl⟩

theorem opens_rest : Opens 3 6 := ⟨rfl, rfl, action_other (.inr (.inr rfl)), rfl⟩

/-- The symbol may follow a half, so that the half is reduced in front of it. -/
structure Follows (symbol : Symbol) : Prop where
  b : tables.action? 4 symbol = some (.reduce 3)
  a : tables.action? 6 symbol = some (.reduce 2)

theorem follows_a : Follows "a" := ⟨rfl, rfl⟩

theorem follows_b : Follows "b" := ⟨rfl, rfl⟩

theorem follows_endMarker : Follows "$" := ⟨rfl, rfl⟩

theorem follows_or_none (symbol : Symbol) : Follows symbol ∨ tables.action? 4 symbol = none := by
  by_cases ha : symbol = "a"
  · exact .inl (ha ▸ follows_a)
  · by_cases hb : symbol = "b"
    · exact .inl (hb ▸ follows_b)
    · by_cases he : symbol = "$"
      · exact .inl (he ▸ follows_endMarker)
      · refine .inr (action_eq_none fun action h => ?_)
        simpa [ha, hb, he] using mem_of_action h

theorem production_one : tables.production? 1 = some ⟨"S", .symbols ["A", "A"]⟩ := rfl

theorem production_two : tables.production? 2 = some ⟨"A", .symbols ["a", "A"]⟩ := rfl

theorem production_three : tables.production? 3 = some ⟨"A", .symbols ["b"]⟩ := rfl

theorem goto_start : tables.goto? startState "S" = some 1 := rfl

/-- Behind both halves only the end-marker has an action. -/
theorem action_five (h : symbol ≠ "$") : tables.action? 5 symbol = none :=
  action_eq_none fun action ha => by simpa [h] using mem_of_action ha

/-! ## Counting events -/

/-- So many of the events are shifts and reductions, and none accepts. -/
structure Counts (events : List Event) (shifts reductions : Nat) : Prop where
  shifts : events.countP Event.isShift = shifts
  reductions : events.countP Event.isReduce = reductions
  going : .accept ∉ events

theorem Counts.append {events events' : List Event} {shifts shifts' reductions reductions' : Nat}
    (h : Counts events shifts reductions) (h' : Counts events' shifts' reductions') :
    Counts (events ++ events') (shifts + shifts') (reductions + reductions') where
  shifts := by rw [List.countP_append, h.shifts, h'.shifts]
  reductions := by rw [List.countP_append, h.reductions, h'.reductions]
  going := by
    rw [List.mem_append]
    rintro (hm | hm)
    · exact h.going hm
    · exact h'.going hm

theorem counts_shift (symbol : Symbol) (next : State) : Counts [.shift symbol next] 1 0 :=
  ⟨rfl, rfl, by simp⟩

theorem counts_reduce (id : ProductionId) (next : State) : Counts [.reduce id next] 0 1 :=
  ⟨rfl, rfl, by simp⟩

/-! ## Halves -/

/-- So many `a`. -/
def as (count : Nat) : List Symbol := List.replicate count "a"

@[simp] theorem length_as (count : Nat) : (as count).length = count := List.length_replicate

theorem as_succ (count : Nat) : as (count + 1) = "a" :: as count := List.replicate_succ

/-- What comes behind the first `b` begins with a symbol that may follow a half. -/
theorem exists_follows (count : Nat) (rest : List Symbol) :
    ∃ follow later, as count ++ "b" :: rest = follow :: later ∧ Follows follow := by
  cases count with
  | zero => exact ⟨"b", rest, rfl, follows_b⟩
  | succ count => exact ⟨"a", as count ++ "b" :: rest, rfl, follows_a⟩

/-- A half is read and reduced if it is followed by a symbol that may follow it. -/
theorem half_stretch {follow : Symbol} (hfollow : Follows follow) {rest : List Symbol} :
    ∀ (count : Nat) (run : Run) {next : State}, run.finished = false → Opens run.top next →
      run.unread = as count ++ "b" :: follow :: rest →
      ∃ events last, run.Stretch tables (as count ++ ["b"]) [next] events last ∧
        last.unread = follow :: rest ∧ Counts events (count + 1) (count + 1)
  | 0, run, next, hf, hopens, hu => by
      have hshift := Run.Stretch.shift hf (show run.unread = "b" :: follow :: rest from hu) hopens.b
      exact ⟨_, _, hshift.reduce rfl hfollow.b production_three rfl hopens.goto, rfl,
        (counts_shift _ _).append (counts_reduce _ _)⟩
  | count + 1, run, next, hf, hopens, hu => by
      rw [as_succ, List.cons_append] at hu ⊢
      have hshift := Run.Stretch.shift hf hu hopens.a
      obtain ⟨events, last, hrest, hlast, hcounts⟩ :=
        half_stretch hfollow count _ hshift.going opens_rest rfl
      have hstretch := hshift.trans hrest
      have htop : last.top = 6 := Run.top_of_stack hstretch.stack
      refine ⟨_, _, hstretch.reduce hlast (htop ▸ hfollow.a) production_two rfl hopens.goto, hlast,
        ?_⟩
      have := ((counts_shift "a" 3).append hcounts).append (counts_reduce 2 next)
      rwa [Nat.add_comm 1, Nat.zero_add] at this

/-- Symbols `a` are read from a state that opens a half into one that does. -/
theorem as_stretch {rest : List Symbol} :
    ∀ (count : Nat) {run : Run} {next : State}, run.finished = false → Opens run.top next →
      run.unread = as count ++ rest →
      ∃ pushed events last next', run.Stretch tables (as count) pushed events last ∧
        last.unread = rest ∧ Opens last.top next'
  | 0, run, next, hf, hopens, hu => ⟨[], [], run, next, .refl hf, hu, hopens⟩
  | count + 1, run, next, hf, hopens, hu => by
      rw [as_succ] at hu ⊢
      have hshift := Run.Stretch.shift hf hu hopens.a
      obtain ⟨pushed, events, last, next', hrest, hlast, hopens'⟩ :=
        as_stretch count hshift.going opens_rest rfl
      exact ⟨_, _, last, next', hshift.trans hrest, hlast, hopens'⟩

/-! ## Refusals -/

/-- The run refuses the symbol at the position. -/
def Refuses (run : Run) (symbol : Symbol) (position : Nat) : Prop :=
  ∃ state, run.ComesTo tables (.error (.unexpectedSymbol state symbol position))

theorem Refuses.of_stretch {run last : Run} {word : List Symbol} {pushed : List State}
    {events : List Event} {position : Nat} (h : Refuses last symbol position)
    (hstretch : run.Stretch tables word pushed events last) : Refuses run symbol position := by
  obtain ⟨state, hcomes⟩ := h
  exact ⟨state, hstretch.comesTo hcomes⟩

theorem refuses_of_stretch {run last : Run} {word rest : List Symbol} {pushed : List State}
    {events : List Event} (h : run.Stretch tables word pushed events last)
    (hu : last.unread = symbol :: rest) (ha : tables.action? last.top symbol = none) :
    Refuses run symbol (run.position + word.length) :=
  ⟨last.top,
    h.position ▸ h.comesTo (Run.comesTo_unexpectedSymbol h.going hu ha)⟩

theorem as_refuses (count : Nat) (run : Run) {rest : List Symbol} (hf : run.finished = false)
    (hopens : Opens run.top next) (hu : run.unread = as count ++ symbol :: rest)
    (ha : symbol ≠ "a") (hb : symbol ≠ "b") : Refuses run symbol (run.position + count) := by
  obtain ⟨pushed, events, last, next', hstretch, hlast, hopens'⟩ :=
    as_stretch count hf hopens hu
  have hrefuses := refuses_of_stretch hstretch hlast (hopens'.other symbol ha hb)
  rwa [length_as] at hrefuses

/-- A symbol is refused behind a half, before the half is reduced or after. -/
theorem half_refuses (count : Nat) (run : Run) {rest : List Symbol} (hf : run.finished = false)
    (hopens : Opens run.top next) (hu : run.unread = as count ++ "b" :: symbol :: rest)
    (hnone : tables.action? next symbol = none) :
    Refuses run symbol (run.position + (count + 1)) := by
  rcases follows_or_none symbol with hfollow | hstuck
  · obtain ⟨events, last, hstretch, hlast, -⟩ := half_stretch hfollow count run hf hopens hu
    have htop : last.top = next := Run.top_of_stack hstretch.stack
    have hrefuses := refuses_of_stretch hstretch hlast (htop ▸ hnone)
    rwa [List.length_append, length_as, List.length_singleton] at hrefuses
  · obtain ⟨pushed, events, last, next', hstretch, hlast, hopens'⟩ :=
      as_stretch count hf hopens hu
    have hread := hstretch.trans (.shift hstretch.going hlast hopens'.b)
    have hrefuses := refuses_of_stretch hread rfl hstuck
    rwa [List.length_append, length_as, List.length_singleton] at hrefuses

/-! ## Sentences -/

/-- Two halves and the end-marker. -/
def sentence (n m : Nat) : List Symbol := as n ++ "b" :: (as m ++ ["b", "$"])

/-- A sentence can begin with the word. -/
def Viable (word : List Symbol) : Prop := ∃ n m, word <+: sentence n m

/-- The input up to the position and with it cannot begin a sentence, and this is the
first such position. -/
structure DeviatesAt (input : List Symbol) (position : Nat) : Prop where
  position_lt : position < input.length
  deviates : ¬ Viable (input.take (position + 1))
  first : ∀ earlier < position, Viable (input.take (earlier + 1))

theorem as_prefix_iff {n m : Nat} {symbol symbol' : Symbol} {rest rest' : List Symbol}
    (h : symbol ≠ "a") (h' : symbol' ≠ "a") :
    as n ++ symbol :: rest <+: as m ++ symbol' :: rest' ↔
      n = m ∧ symbol = symbol' ∧ rest <+: rest' := by
  induction n generalizing m with
  | zero =>
      cases m with
      | zero => simp [as]
      | succ m => simp [as, List.replicate_succ, h]
  | succ n ih =>
      cases m with
      | zero => simp [as, List.replicate_succ, Ne.symm h']
      | succ m => simpa [as_succ] using ih

theorem Viable.of_prefix {word longer : List Symbol} (h : Viable longer) (hle : word <+: longer) :
    Viable word := by
  obtain ⟨n, m, hlonger⟩ := h
  exact ⟨n, m, hle.trans hlonger⟩

/-- An input deviates where a viable word is followed by a symbol that makes it none. -/
theorem deviatesAt_of_viable {word rest : List Symbol} (h : Viable word)
    (hnot : ¬ Viable (word ++ [symbol])) : DeviatesAt (word ++ symbol :: rest) word.length where
  position_lt := by simp
  deviates := by
    rwa [List.take_length_add_append, List.take_succ_cons, List.take_zero]
  first := by
    intro earlier hlt
    rw [List.take_append_of_le_length hlt]
    exact h.of_prefix (List.take_prefix _ _)

/-- An input by what it has in place of a sentence, if it does not start with one. -/
inductive Shape : List Symbol → Prop where
  | noFirst (n : Nat) {symbol : Symbol} (rest : List Symbol) (ha : symbol ≠ "a")
      (hb : symbol ≠ "b") : Shape (as n ++ symbol :: rest)
  | noSecond (n m : Nat) {symbol : Symbol} (rest : List Symbol) (ha : symbol ≠ "a")
      (hb : symbol ≠ "b") : Shape (as n ++ "b" :: (as m ++ symbol :: rest))
  | noEnd (n m : Nat) {symbol : Symbol} (rest : List Symbol) (he : symbol ≠ "$") :
      Shape (as n ++ "b" :: (as m ++ "b" :: symbol :: rest))
  | sentence (n m : Nat) (rest : List Symbol) :
      Shape (as n ++ "b" :: (as m ++ "b" :: "$" :: rest))

theorem exists_as : ∀ {input : List Symbol}, input.getLast? = some "$" →
    ∃ n symbol rest, input = as n ++ symbol :: rest ∧ symbol ≠ "a"
  | [], h => by cases h
  | first :: rest, h => by
      by_cases ha : first = "a"
      · subst ha
        cases rest with
        | nil => exact absurd h (by decide)
        | cons second rest =>
            rw [List.getLast?_cons_cons] at h
            obtain ⟨n, symbol, rest', hrest, hsymbol⟩ := exists_as h
            exact ⟨n + 1, symbol, rest', by rw [hrest, as_succ, List.cons_append], hsymbol⟩
      · exact ⟨0, first, rest, rfl, ha⟩

/-- The end-marker is still to come behind a `b`. -/
theorem getLast?_of_b {n : Nat} {rest : List Symbol}
    (h : (as n ++ "b" :: rest).getLast? = some "$") : rest.getLast? = some "$" := by
  cases rest with
  | nil => simp at h
  | cons first rest => simpa using h

theorem shape_of_getLast? {input : List Symbol} (h : input.getLast? = some "$") : Shape input := by
  obtain ⟨n, symbol, rest, rfl, ha⟩ := exists_as h
  by_cases hb : symbol = "b"
  · subst hb
    have hrest := getLast?_of_b h
    obtain ⟨m, symbol, rest, rfl, ha⟩ := exists_as hrest
    by_cases hb : symbol = "b"
    · subst hb
      have hlast := getLast?_of_b hrest
      cases rest with
      | nil => cases hlast
      | cons symbol rest =>
          by_cases he : symbol = "$"
          · exact he ▸ .sentence n m rest
          · exact .noEnd n m rest he
    · exact .noSecond n m rest ha hb
  · exact .noFirst n rest ha hb

/-! ## The verdict -/

/-- What an input is answered with.  One that starts with a sentence is accepted, and
one that does not is refused where it deviates from all sentences. -/
inductive Verdict (input : List Symbol) : Except ParseError Trace → Prop where
  | sentence {n m : Nat} {events : List Event} (starts : Reference.sentence n m <+: input)
      (counts : Counts events (n + m + 2) (n + m + 3)) :
      Verdict input (.ok ⟨events ++ [.accept], [0, 1], n + m + 2⟩)
  | noSentence {state : State} {symbol : Symbol} {position : Nat}
      (differs : ∀ n m, ¬ Reference.sentence n m <+: input)
      (deviates : DeviatesAt input position) (here : input[position]? = some symbol) :
      Verdict input (.error (.unexpectedSymbol state symbol position))

section Refused

variable {symbol : Symbol} {word rest : List Symbol}

/-- An input is refused where it deviates, if the end-marker has not come before. -/
theorem exists_verdict_of_refuses (rest : List Symbol) (hviable : Viable word) (hend : "$" ∉ word)
    (hnot : ¬ Viable (word ++ [symbol]))
    (h : Refuses { unread := word ++ symbol :: rest } symbol word.length) :
    ∃ answer, Run.ComesTo tables { unread := word ++ symbol :: rest } answer ∧
      Verdict (word ++ symbol :: rest) answer := by
  obtain ⟨state, hcomes⟩ := h
  refine ⟨_, hcomes, .noSentence (fun n m hstarts => ?_) (deviatesAt_of_viable hviable hnot)
    (by simp)⟩
  have hword : word ++ [symbol] <+: word ++ symbol :: rest := ⟨rest, by simp⟩
  rcases List.prefix_or_prefix_of_prefix hword hstarts with hle | hle
  · exact hnot ⟨n, m, hle⟩
  · rcases List.prefix_concat_iff.1 hle with heq | hle
    · exact hnot (heq ▸ ⟨n, m, List.prefix_refl _⟩)
    · exact hend (hle.subset (by simp [Reference.sentence]))

theorem viable_iff {n : Nat} (h : symbol ≠ "a") :
    Viable (as n ++ symbol :: rest) ↔ symbol = "b" ∧ ∃ m, rest <+: as m ++ ["b", "$"] := by
  have hb : "b" ≠ "a" := by decide
  constructor
  · rintro ⟨n', m, hword⟩
    obtain ⟨-, hsymbol, hrest⟩ := (as_prefix_iff h hb).1 hword
    exact ⟨hsymbol, m, hrest⟩
  · rintro ⟨hsymbol, m, hrest⟩
    exact ⟨n, m, (as_prefix_iff h hb).2 ⟨rfl, hsymbol, hrest⟩⟩

end Refused

/-- The first half of an input, reduced in front of what follows it. -/
theorem first_half (n : Nat) {follow : Symbol} (rest : List Symbol) (hfollow : Follows follow) :
    ∃ events last,
      Run.Stretch tables { unread := as n ++ "b" :: follow :: rest } (as n ++ ["b"]) [2] events
        last ∧
      last.unread = follow :: rest ∧ last.top = 2 ∧ last.position = n + 1 ∧
      Counts events (n + 1) (n + 1) := by
  obtain ⟨events, last, hstretch, hlast, hcounts⟩ :=
    half_stretch hfollow n { unread := as n ++ "b" :: follow :: rest } rfl opens_first rfl
  refine ⟨events, last, hstretch, hlast, Run.top_of_stack hstretch.stack, ?_, hcounts⟩
  simpa using hstretch.position

variable {n m : Nat} {rest : List Symbol}

theorem exists_verdict_noFirst (ha : symbol ≠ "a") (hb : symbol ≠ "b") :
    ∃ answer, Run.ComesTo tables { unread := as n ++ symbol :: rest } answer ∧
      Verdict (as n ++ symbol :: rest) answer := by
  have hviable : Viable (as n) := ⟨n, 0, List.prefix_append _ _⟩
  have hnot : ¬ Viable (as n ++ [symbol]) := fun h => hb ((viable_iff ha).1 h).1
  have hrefuses := as_refuses n { unread := as n ++ symbol :: rest } rfl opens_first rfl ha hb
  refine exists_verdict_of_refuses rest hviable (by simp [as]) hnot ?_
  simpa using hrefuses

theorem exists_verdict_noSecond (ha : symbol ≠ "a") (hb : symbol ≠ "b") :
    ∃ answer, Run.ComesTo tables { unread := as n ++ "b" :: (as m ++ symbol :: rest) } answer ∧
      Verdict (as n ++ "b" :: (as m ++ symbol :: rest)) answer := by
  have hviable : Viable (as n ++ "b" :: as m) :=
    (viable_iff (by decide)).2 ⟨rfl, m, List.prefix_append _ _⟩
  have hnot : ¬ Viable ((as n ++ "b" :: as m) ++ [symbol]) := by
    rw [List.append_assoc, List.cons_append, viable_iff (by decide)]
    rintro ⟨-, m', hrest⟩
    exact hb ((as_prefix_iff ha (by decide)).1 hrest).2.1
  have hrefuses :
      Refuses { unread := as n ++ "b" :: (as m ++ symbol :: rest) } symbol (n + 1 + m) := by
    cases m with
    | zero =>
        have h := half_refuses n { unread := as n ++ "b" :: symbol :: rest } rfl opens_first rfl
          (opens_second.other symbol ha hb)
        rwa [Nat.zero_add] at h
    | succ m =>
        obtain ⟨events, last, hstretch, hlast, htop, hposition, -⟩ :=
          first_half n (as m ++ symbol :: rest) follows_a
        have h := as_refuses (m + 1) last hstretch.going (htop ▸ opens_second) hlast ha hb
        exact hposition ▸ h.of_stretch hstretch
  have hverdict := exists_verdict_of_refuses rest hviable (by simp [as]) hnot
  simp only [List.append_assoc, List.cons_append, List.length_append, length_as,
    List.length_cons, ← Nat.add_assoc] at hverdict
  exact hverdict (by rwa [Nat.add_right_comm] at hrefuses)

theorem exists_verdict_noEnd (he : symbol ≠ "$") :
    ∃ answer,
      Run.ComesTo tables { unread := as n ++ "b" :: (as m ++ "b" :: symbol :: rest) } answer ∧
      Verdict (as n ++ "b" :: (as m ++ "b" :: symbol :: rest)) answer := by
  have hviable : Viable (as n ++ "b" :: (as m ++ ["b"])) :=
    (viable_iff (by decide)).2 ⟨rfl, m, ["$"], by simp⟩
  have hnot : ¬ Viable ((as n ++ "b" :: (as m ++ ["b"])) ++ [symbol]) := by
    rw [List.append_assoc, List.cons_append, viable_iff (by decide), List.append_assoc,
      List.singleton_append]
    rintro ⟨-, m', hrest⟩
    obtain ⟨-, -, hlast⟩ := (as_prefix_iff (by decide) (by decide)).1 hrest
    exact he (List.cons_prefix_cons.1 hlast).1
  have hrefuses : Refuses { unread := as n ++ "b" :: (as m ++ "b" :: symbol :: rest) } symbol
      (n + 1 + (m + 1)) := by
    obtain ⟨follow, later, hlater, hfollow⟩ := exists_follows m (symbol :: rest)
    rw [hlater]
    obtain ⟨events, last, hstretch, hlast, htop, hposition, -⟩ := first_half n later hfollow
    have h := half_refuses m last hstretch.going (htop ▸ opens_second) (hlast.trans hlater.symm)
      (action_five he)
    exact hposition ▸ h.of_stretch hstretch
  have hverdict := exists_verdict_of_refuses rest hviable (by simp [as]) hnot
  simp only [List.append_assoc, List.cons_append, List.nil_append, List.length_append, length_as,
    List.length_cons, List.length_nil] at hverdict
  exact hverdict (by rwa [Nat.add_right_comm] at hrefuses)

theorem exists_verdict_sentence :
    ∃ answer,
      Run.ComesTo tables { unread := as n ++ "b" :: (as m ++ "b" :: "$" :: rest) } answer ∧
      Verdict (as n ++ "b" :: (as m ++ "b" :: "$" :: rest)) answer := by
  have hstarts : Reference.sentence n m <+: as n ++ "b" :: (as m ++ "b" :: "$" :: rest) :=
    ⟨rest, by simp [Reference.sentence]⟩
  obtain ⟨follow, later, hlater, hfollow⟩ := exists_follows m ("$" :: rest)
  rw [hlater] at hstarts ⊢
  obtain ⟨events, middle, hfirst, hmiddle, htop, -, hcounts⟩ := first_half n later hfollow
  obtain ⟨events', last, hsecond, hlast, hcounts'⟩ := half_stretch follows_endMarker m
    middle hfirst.going (htop ▸ opens_second) (hmiddle.trans hlater.symm)
  -- both halves are on the stack, with the state 5 on top
  have hhalves := hfirst.trans hsecond
  have hfive : last.top = 5 := Run.top_of_stack hhalves.stack
  have hreduce : tables.action? last.top "$" = some (.reduce 1) := by rw [hfive]; rfl
  have hwhole := hhalves.reduce hlast hreduce production_one rfl goto_start
  have hcomes := hwhole.comesTo (Run.comesTo_accept hwhole.going hlast rfl)
  have hcounts := (hcounts.append hcounts').append (counts_reduce 1 1)
  have hlength : ((as n ++ ["b"]) ++ (as m ++ ["b"])).length = n + m + 2 := by simp; omega
  refine ⟨_, hcomes, ?_⟩
  rw [hwhole.accept_trace, hlength]
  refine .sentence hstarts ?_
  rwa [show n + 1 + (m + 1) + 0 = n + m + 2 by omega,
    show n + 1 + (m + 1) + 1 = n + m + 3 by omega] at hcounts

/-- An input with one of the shapes is answered with a verdict. -/
theorem exists_verdict {input : List Symbol} (h : Shape input) :
    ∃ answer, Run.ComesTo tables { unread := input } answer ∧ Verdict input answer := by
  cases h with
  | noFirst n rest ha hb => exact exists_verdict_noFirst ha hb
  | noSecond n m rest ha hb => exact exists_verdict_noSecond ha hb
  | noEnd n m rest he => exact exists_verdict_noEnd he
  | sentence n m rest => exact exists_verdict_sentence

/-- The file declares the tables, and every input that ends with the end-marker is
answered with one verdict. -/
theorem decides :
    TableFile.read file = .ok tables ∧
      ∀ input : List Symbol, input.getLast? = some "$" →
        ∃ answer, (∀ other, ParsesTo tables input other ↔ other = answer) ∧
          Verdict input answer := by
  refine ⟨read_file, fun input hinput => ?_⟩
  obtain ⟨answer, hcomes, hverdict⟩ := exists_verdict (shape_of_getLast? hinput)
  have hstart : Run.start tables input = .ok { unread := input } :=
    Run.start_eq_ok_iff.2 ⟨hinput, rfl⟩
  refine ⟨answer, fun other => ?_, hverdict⟩
  rw [parsesTo_iff hstart]
  exact hcomes.iff_eq

/-- A sentence is accepted, and an input that ends inside its second half is refused at
the end-marker. -/
theorem decides_aabb :
    let accepted : Except ParseError Trace :=
      .ok ⟨[.shift "a" 3, .shift "a" 3, .shift "b" 4, .reduce 3 6, .reduce 2 6, .reduce 2 2,
        .shift "b" 4, .reduce 3 5, .reduce 1 1, .accept], [0, 1], 4⟩
    let refused : Except ParseError Trace := .error (.unexpectedSymbol 3 "$" 3)
    ["a", "a", "b", "b", "$"].getLast? = some "$" ∧ ["a", "b", "a", "$"].getLast? = some "$" ∧
      ParsesTo tables ["a", "a", "b", "b", "$"] accepted ∧
      Verdict ["a", "a", "b", "b", "$"] accepted ∧
      ParsesTo tables ["a", "b", "a", "$"] refused ∧ Verdict ["a", "b", "a", "$"] refused := by
  intro accepted refused
  have hends : ["a", "a", "b", "b", "$"].getLast? = some "$" := by decide
  have hends' : ["a", "b", "a", "$"].getLast? = some "$" := by decide
  have hparses : ParsesTo tables ["a", "a", "b", "b", "$"] accepted := ⟨11, by rfl⟩
  have hparses' : ParsesTo tables ["a", "b", "a", "$"] refused := ⟨11, by rfl⟩
  obtain ⟨answer, hall, hverdict⟩ := decides.2 _ hends
  obtain ⟨answer', hall', hverdict'⟩ := decides.2 _ hends'
  obtain rfl := (hall _).1 hparses
  obtain rfl := (hall' _).1 hparses'
  exact ⟨hends, hends', hparses, hverdict, hparses', hverdict'⟩

end Reference

end ShiftReduce
