import ShiftReduce.Proofs.LifeCycle
import ShiftReduce.Proofs.Soundness

/-!
# The first end-marker

An input ends with the end-marker, and the end-marker may also stand earlier in it.
A run that keeps to `Run.StopsAtEndMarker` reads nothing behind the first one.  When
it gets there it goes no further, and if the end-marker is shifted the next step
fails for want of input.

To a run the end-marker is a symbol like any other.  It finds the end of its input
by running out of symbols.  So it moves past the first end-marker where the tables
shift it and a symbol is left behind it (`read_past_endMarker`), and it never does
otherwise (`stopsAtEndMarker_iff`).
-/

namespace ShiftReduce

namespace Run

/-- The next step looks up an action for the symbol at the position. -/
def LooksAt (run : Run) (position : Nat) : Prop :=
  run.finished = false ∧ run.unread ≠ [] ∧ run.position = position

/-- The next step shifts an end-marker that has a symbol behind it. -/
def ShiftsEndMarker (tables : Tables) (run : Run) : Prop :=
  run.finished = false ∧ ∃ symbol rest next, run.unread = tables.endMarker :: symbol :: rest ∧
    tables.action? run.top tables.endMarker = some (.shift next)

/-- A run on an input whose first end-marker stands at a position has no part in
what lies behind. -/
structure StopsAtEndMarker (tables : Tables) (run : Run) (first : Nat) : Prop where
  looks : ∀ count position, (run.after tables count).LooksAt position → position ≤ first
  shifts : ∀ count, (run.after tables count).position < (run.after tables (count + 1)).position →
    (run.after tables count).position ≤ first
  reports : ∀ count state symbol position,
    run.outcome tables count = .failed (.unexpectedSymbol state symbol position) →
    position ≤ first
  /-- A step at the end-marker that does not end the run reads nothing, or it shifts
  the end-marker and the next step fails. -/
  stays : ∀ count, (run.after tables count).position = first →
    run.outcome tables count = .running → (run.after tables (count + 1)).position = first ∨
      run.outcome tables (count + 1) =
        .failed (.shiftPastEnd (run.after tables (count + 1)).top)

variable {tables : Tables} {input : List Symbol} {run next : Run}

/-- Tables that keep the end-marker never have it shifted. -/
theorem not_shiftsEndMarker
    (h : ∀ state next, tables.action? state tables.endMarker ≠ some (.shift next)) :
    ¬ run.ShiftsEndMarker tables := by
  rintro ⟨-, _, _, next, -, ha⟩
  exact h run.top next ha

/-! ## Positions of end-markers -/

/-- An end-marker that comes next is not before the first one. -/
theorem Consistent.idxOf_le (h : Consistent input run) {terminal : Symbol} {rest : List Symbol}
    (hu : run.unread = terminal :: rest) : input.idxOf terminal ≤ run.position := by
  have hp := h.getElem?_position
  rw [hu, List.head?_cons] at hp
  obtain ⟨_, hp⟩ := List.getElem?_eq_some_iff.1 hp
  refine Nat.le_of_not_lt fun hlt => ?_
  have := List.not_of_lt_findIdx hlt
  simp [hp] at this

/-- The symbol that comes next at the position of the first end-marker is that. -/
theorem Consistent.eq_of_position (h : Consistent input run) {terminal symbol : Symbol}
    {rest : List Symbol} (hu : run.unread = symbol :: rest)
    (hposition : run.position = input.idxOf terminal) : symbol = terminal := by
  have hp := h.getElem?_position
  rw [hu, List.head?_cons, hposition] at hp
  obtain ⟨_, hp⟩ := List.getElem?_eq_some_iff.1 hp
  rw [← hp, List.getElem_idxOf]

/-! ## The invariant -/

/-- The run has not passed the first end-marker, unless that was the last symbol. -/
def Within (tables : Tables) (input : List Symbol) (run : Run) : Prop :=
  run.position ≤ input.idxOf tables.endMarker ∨
    (run.position = input.idxOf tables.endMarker + 1 ∧ run.unread = [])

theorem Within.step (h : Within tables input run) (hc : Consistent input run)
    (hf : run.finished = false) (hkept : ¬ run.ShiftsEndMarker tables)
    (hs : run.Step tables .running next) : Within tables input next := by
  cases hs with
  | reduce => exact h
  | @shift symbol rest state hu ha =>
      rcases h with hle | ⟨-, hnil⟩
      · rcases Nat.lt_or_eq_of_le hle with hlt | heq
        · exact .inl hlt
        · obtain rfl := hc.eq_of_position hu heq
          cases rest with
          | nil => exact .inr ⟨congrArg (· + 1) heq, rfl⟩
          | cons following rest => exact absurd ⟨hf, _, _, _, hu, ha⟩ hkept
      · rw [hu] at hnil
        cases hnil

/-- A run that shifts no end-marker but a last symbol stays within the first one. -/
theorem within_after
    (hkept : ∀ count, ¬ (Run.after tables count { unread := input }).ShiftsEndMarker tables)
    {count : Nat} (hf : (Run.after tables count { unread := input }).finished = false) :
    Within tables input (Run.after tables count { unread := input }) := by
  rw [not_finished_after_iff rfl] at hf
  induction count with
  | zero => exact .inl (Nat.zero_le _)
  | succ count ih =>
      have hbefore : ∀ k < count, Run.outcome tables k { unread := input } = .running :=
        fun k hk => hf k (Nat.lt_succ_of_lt hk)
      exact (ih hbefore).step ((Consistent.start input).after tables count)
        ((not_finished_after_iff rfl count).2 hbefore) (hkept count)
        (step_of_running (hf count (Nat.lt_succ_self count)))

theorem Step.position_le {outcome : Outcome} (hs : run.Step tables outcome next) :
    run.position ≤ next.position := by
  cases hs with
  | shift => exact Nat.le_succ _
  | reduce | accept | pastEnd | unexpected | defect => exact Nat.le_refl _

/-- A step moves the run on only by reading a symbol. -/
theorem Step.unread_ne_nil {outcome : Outcome} (hs : run.Step tables outcome next)
    (hlt : run.position < next.position) : run.unread ≠ [] := by
  cases hs with
  | shift hu => simp [hu]
  | reduce | accept | pastEnd | unexpected | defect => exact absurd hlt (Nat.lt_irrefl _)

theorem stopsAtEndMarker_of_kept
    (hkept : ∀ count, ¬ (Run.after tables count { unread := input }).ShiftsEndMarker tables) :
    Run.StopsAtEndMarker tables { unread := input } (input.idxOf tables.endMarker) := by
  have hlooks : ∀ count position,
      (Run.after tables count { unread := input }).LooksAt position →
      position ≤ input.idxOf tables.endMarker := by
    rintro count position ⟨hf, hne, rfl⟩
    rcases within_after hkept hf with hle | ⟨-, hnil⟩
    · exact hle
    · exact absurd hnil hne
  constructor
  · exact hlooks
  · intro count hlt
    rcases step_after_cases tables count { unread := input } with ⟨hf, hs⟩ | ⟨-, -, hafter⟩
    · exact hlooks count _ ⟨hf, hs.unread_ne_nil hlt, rfl⟩
    · rw [hafter] at hlt
      exact absurd hlt (Nat.lt_irrefl _)
  · intro count state symbol position hfailed
    rcases step_after_cases tables count { unread := input } with ⟨hf, hs⟩ | ⟨-, he, -⟩
    · rw [hfailed] at hs
      generalize Run.after tables (count + 1) { unread := input } = last at hs
      cases hs with
      | unexpected hu => exact hlooks count _ ⟨hf, by simp [hu], rfl⟩
    · rw [hfailed] at he
      cases he
  · intro count hposition hrunning
    have hs := step_of_running hrunning
    have hf : (Run.after tables (count + 1) { unread := input }).finished = false :=
      hs.finished_eq.trans (not_finished_of_step_eq (step_after ..) (.inl hrunning))
    rcases within_after hkept hf with hle | ⟨-, hnil⟩
    · exact .inl (Nat.le_antisymm hle (hposition ▸ hs.position_le))
    · exact .inr (congrArg Prod.fst ((Step.pastEnd hnil).step_eq hf))

/-- A run that stops at the first end-marker shifts none with a symbol behind it.
Such an end-marker would be the first, and the next step would look behind it. -/
theorem StopsAtEndMarker.not_shiftsEndMarker
    (h : Run.StopsAtEndMarker tables { unread := input } (input.idxOf tables.endMarker))
    (count : Nat) : ¬ (Run.after tables count { unread := input }).ShiftsEndMarker tables := by
  rintro ⟨hf, symbol, rest, next, hu, ha⟩
  have hfirst := ((Consistent.start input).after tables count).idxOf_le hu
  have hnext : Run.after tables (count + 1) { unread := input } =
      (Run.after tables count { unread := input }).shift tables.endMarker (symbol :: rest) next :=
    congrArg Prod.snd ((Step.shift hu ha).step_eq hf)
  have hlooks : (Run.after tables (count + 1) { unread := input }).LooksAt
      ((Run.after tables count { unread := input }).position + 1) := by
    rw [hnext]
    exact ⟨hf, List.cons_ne_nil _ _, rfl⟩
  have := h.looks (count + 1) _ hlooks
  omega

end Run

/-- A run stops at the first end-marker of its input exactly if no step shifts an
end-marker with a symbol behind it. -/
theorem stopsAtEndMarker_iff {tables : Tables} {input : List Symbol}
    (hinput : input.getLast? = some tables.endMarker) :
    ∃ run, Run.start tables input = .ok run ∧
      (run.StopsAtEndMarker tables (input.idxOf tables.endMarker) ↔
        ∀ count, ¬ (run.after tables count).ShiftsEndMarker tables) :=
  ⟨{ unread := input }, Run.start_eq_ok_iff.2 ⟨hinput, rfl⟩,
    Run.StopsAtEndMarker.not_shiftsEndMarker, Run.stopsAtEndMarker_of_kept⟩

theorem stopsAtEndMarker_rightRecursive :
    ["a", "$", "a", "$"].getLast? = some rightRecursive.endMarker ∧
      Run.StopsAtEndMarker rightRecursive { unread := ["a", "$", "a", "$"] } 1 := by
  have hinput : ["a", "$", "a", "$"].getLast? = some rightRecursive.endMarker := by decide
  obtain ⟨run, hstart, h⟩ := stopsAtEndMarker_iff hinput
  obtain ⟨-, rfl⟩ := Run.start_eq_ok_iff.1 hstart
  refine ⟨hinput, h.2 fun count => Run.not_shiftsEndMarker fun state next ha => ?_⟩
  have hm := rightRecursive_action ha
  simp [show rightRecursive.endMarker = "$" from rfl] at hm

/-- Tables that shift the end-marker read on behind the first one. -/
theorem read_past_endMarker :
    ¬ ∀ (tables : Tables) (input : List Symbol), input.getLast? = some tables.endMarker →
      ∃ run, Run.start tables input = .ok run ∧
        run.StopsAtEndMarker tables (input.idxOf tables.endMarker) := by
  intro h
  obtain ⟨run, hstart, hstops⟩ := h
    (.ofDeclarations [.action 0 "$" (.shift 1), .action 1 "$" .accept]) ["$", "$"] (by decide)
  obtain ⟨-, rfl⟩ := Run.start_eq_ok_iff.1 hstart
  -- the first end-marker is shifted, and the run is accepted at the second
  rcases hstops.stays 0 rfl rfl with hposition | hfailed
  · exact absurd hposition (by decide)
  · exact absurd hfailed (by decide)

end ShiftReduce
