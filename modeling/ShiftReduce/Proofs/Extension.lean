import ShiftReduce.Proofs.FirstDeclared
import ShiftReduce.Proofs.Lockstep
import ShiftReduce.Proofs.Reduction

/-!
# Tables with more declarations

Declarations that come later only add entries, since the first one for a key counts.  So
tables are a part of those with more declarations (`Tables.PartOf`), as long as no
end-marker is declared again.

Whatever a run found in the smaller tables it finds in the larger ones.  So every step
that succeeds is the same there, and so is every failure that is *settled*, because it
does not come from an entry that is missing (`Tables.PartOf.step`).  An answer that is
not settled is changed by some declaration (`Tables.exists_undoes`), namely by one for
the entry that was missing.
-/

namespace ShiftReduce

namespace Tables

/-- The second tables have the same end-marker, and whatever the first ones answer. -/
structure PartOf (a b : Tables) : Prop where
  endMarker : a.endMarker = b.endMarker
  action : ∀ {state terminal what}, a.action? state terminal = some what →
    b.action? state terminal = some what
  goto : ∀ {state nonTerminal next}, a.goto? state nonTerminal = some next →
    b.goto? state nonTerminal = some next
  production : ∀ {id rule}, a.production? id = some rule → b.production? id = some rule

/-- The failure does not come from an entry that is missing. -/
def Settled (tables : Tables) : ParseError → Prop
  | .unexpectedSymbol state symbol _ => tables.action? state symbol = some .error
  | .reduction (.underflow ..) => True
  | .reduction (.missingGoto ..) | .reduction (.unknownProduction _) => False
  | .missingEndMarker _ | .shiftPastEnd _ | .finished => True

/-- What the first tables decide is decided by the second ones too. -/
structure KeptBy (a b : Tables) : Prop where
  start : ∀ input, Run.start b input = Run.start a input
  step : ∀ run count,
    Run.outcome a count run = .running ∨ Run.outcome a count run = .accepted →
      Run.outcome b count run = Run.outcome a count run ∧
        Run.after b (count + 1) run = Run.after a (count + 1) run
  endless : ∀ run, Run.Endless a run → Run.Endless b run
  answer : ∀ input answer, ParsesTo a input answer →
    (∀ error, answer = .error error → a.Settled error) → ParsesTo b input answer

/-! ## Parts of tables -/

/-- Tables are a part of those with more declarations. -/
theorem partOf_append (declarations : List Declaration) {more : List Declaration}
    (hmore : ∀ declaration ∈ more, declaration.endMarker? = none) :
    (ofDeclarations declarations).PartOf (ofDeclarations (declarations ++ more)) := by
  have hsmall := firstDeclared_ofDeclarations declarations
  have hlarge := firstDeclared_ofDeclarations (declarations ++ more)
  constructor
  · rw [hsmall.endMarker, hlarge.endMarker, List.filterMap_append,
      List.filterMap_eq_nil_iff.2 hmore, List.append_nil]
  · intro state terminal what ha
    rw [hlarge.action, List.findSome?_append, ← hsmall.action, ha, Option.some_or]
  · intro state nonTerminal next hg
    rw [hlarge.goto, List.findSome?_append, ← hsmall.goto, hg, Option.some_or]
  · intro id rule hp
    rw [hlarge.production, List.findSome?_append, ← hsmall.production, hp, Option.some_or]

namespace PartOf

variable {a b : Tables} {run next : Run} {outcome : Outcome} {count : Nat}

theorem reduces (h : a.PartOf b) {id : ProductionId} {stack left : List State}
    {result : Except ReductionError State} (hr : a.Reduces id stack result left)
    (hsettled : ∀ error, result = .error error → a.Settled (.reduction error)) :
    b.Reduces id stack result left := by
  cases hr with
  | unknown => exact (hsettled _ rfl).elim
  | underflow hp hd => exact .underflow (h.production hp) hd
  | missingGoto => exact (hsettled _ rfl).elim
  | done hp hd hg => exact .done (h.production hp) hd (h.goto hg)

/-- A step that succeeds, or fails for a settled reason, is the same with larger
tables. -/
theorem step (h : a.PartOf b) (hs : run.Step a outcome next)
    (hsettled : ∀ error, outcome = .failed error → a.Settled error) :
    run.Step b outcome next := by
  cases hs with
  | shift hu ha => exact .shift hu (h.action ha)
  | reduce hu ha hp hd hg => exact .reduce hu (h.action ha) (h.production hp) hd (h.goto hg)
  | accept hu ha => exact .accept hu (h.action ha)
  | pastEnd hu => exact .pastEnd hu
  | unexpected hu ha => exact .unexpected hu (.inl (h.action (hsettled _ rfl)))
  | defect hu ha hfault =>
      refine .of_reduces_error hu (h.action ha) (h.reduces (reduces_of_result hfault) ?_) _
      intro error he
      obtain rfl := Except.error.inj he
      exact hsettled _ rfl

theorem lockstep (h : a.PartOf b)
    (hsettled : ∀ k < count, ∀ error, run.outcome a k = .failed error → a.Settled error) :
    run.after b count = run.after a count ∧
      ∀ k < count, run.outcome b k = run.outcome a k :=
  run.lockstep (fun run => run) (fun _ => rfl) fun k hk hs => h.step hs (hsettled k hk)

/-- While the run goes on, and at the step that ends it for a settled reason, it is the
same with larger tables. -/
theorem lockstep_of_running (h : a.PartOf b) (hrun : ∀ k < count, run.outcome a k = .running)
    (hsettled : ∀ error, run.outcome a count = .failed error → a.Settled error) :
    run.after b (count + 1) = run.after a (count + 1) ∧
      ∀ k < count + 1, run.outcome b k = run.outcome a k := by
  refine h.lockstep fun k hk error he => ?_
  rcases Nat.lt_succ_iff_lt_or_eq.1 hk with hk | rfl
  · rw [hrun k hk] at he
    cases he
  · exact hsettled error he

theorem comesTo (h : a.PartOf b) {answer : Except ParseError Trace}
    (hanswer : run.ComesTo a answer)
    (hsettled : ∀ error, answer = .error error → a.Settled error) : run.ComesTo b answer := by
  obtain ⟨allowance, hanswer⟩ := hanswer
  obtain ⟨last, -, hbefore, hend⟩ := Run.answerWithin_eq_some_iff.1 hanswer
  have hsame := h.lockstep_of_running hbefore fun error he => by
    rcases hend with ⟨ho, -⟩ | ⟨error', ho, rfl⟩
    · rw [ho] at he
      cases he
    · obtain rfl := Outcome.failed.inj (ho.symm.trans he)
      exact hsettled _ rfl
  obtain ⟨hafter, houtcome⟩ := hsame
  have hbefore' : ∀ k < last, run.outcome b k = .running := fun k hk =>
    (houtcome k (Nat.lt_succ_of_lt hk)).trans (hbefore k hk)
  have hlast := houtcome last (Nat.lt_succ_self last)
  rcases hend with ⟨ho, rfl⟩ | ⟨error, ho, rfl⟩
  · rw [← hafter]
    exact Run.comesTo_of_accepted hbefore' (hlast.trans ho)
  · exact Run.comesTo_of_failed hbefore' (hlast.trans ho)

theorem keptBy (h : a.PartOf b) : a.KeptBy b := by
  have hstart := Run.start_congr h.endMarker.symm
  constructor
  · exact hstart
  · intro run count hok
    -- a run that has ended does nothing more that succeeds
    have hrun : ∀ k < count, run.outcome a k = .running := by
      by_contra hended
      rw [Run.outcome_after_end hended] at hok
      rcases hok with hok | hok <;> cases hok
    obtain ⟨hafter, houtcome⟩ := h.lockstep_of_running hrun fun error he => by
      rw [he] at hok
      rcases hok with hok | hok <;> cases hok
    exact ⟨houtcome count (Nat.lt_succ_self count), hafter⟩
  · intro run hendless k
    obtain ⟨-, houtcome⟩ := h.lockstep_of_running (fun j _ => hendless j) fun error he => by
      rw [hendless k] at he
      cases he
    exact (houtcome k (Nat.lt_succ_self k)).trans (hendless k)
  · intro input answer hparses hsettled
    cases hs : Run.start a input with
    | ok run =>
        rw [parsesTo_iff hs] at hparses
        rw [parsesTo_iff ((hstart input).trans hs)]
        exact h.comesTo hparses hsettled
    | error error =>
        simpa only [ParsesTo, parseWithin, hstart, hs] using hparses

end PartOf

/-! ## Entries that are missing -/

/-- There is no entry where the failure says that there is none. -/
def Lacks (tables : Tables) : ParseError → Prop
  | .unexpectedSymbol state symbol _ =>
    tables.action? state symbol = some .error ∨ tables.action? state symbol = none
  | .reduction (.missingGoto exposed nonTerminal) => tables.goto? exposed nonTerminal = none
  | .reduction (.unknownProduction id) => tables.production? id = none
  | .reduction (.underflow ..) | .missingEndMarker _ | .shiftPastEnd _ | .finished => True

variable {tables : Tables} {input : List Symbol} {error : ParseError}

theorem lacks_of_step {run next : Run} (hs : run.Step tables (.failed error) next) :
    tables.Lacks error := by
  cases hs with
  | pastEnd => trivial
  | unexpected hu ha => exact ha
  | defect hu ha hfault =>
      have hr := reduces_of_result hfault
      generalize (tables.reduce _ _).stack = left at hr
      cases hr with
      | unknown hp => exact hp
      | underflow => trivial
      | missingGoto hp hd hg => exact hg

/-- What a parse fails for is true of the tables. -/
theorem lacks_of_parsesTo (h : ParsesTo tables input (.error error)) : tables.Lacks error := by
  obtain ⟨allowance, h⟩ := h
  cases hs : Run.start tables input with
  | error error' =>
      simp only [parseWithin, hs, Option.some.injEq, Except.error.injEq] at h
      obtain rfl := h
      unfold Run.start at hs
      split at hs
      · cases hs
      · obtain rfl := Except.error.inj hs
        trivial
  | ok run =>
      rw [parseWithin_eq_answerWithin hs] at h
      obtain ⟨last, -, hbefore, ⟨-, hok⟩ | ⟨error', ho, herror⟩⟩ :=
        Run.answerWithin_eq_some_iff.1 h
      · cases hok
      · obtain rfl := Except.error.inj herror
        rcases Run.step_after_cases tables last run with ⟨-, hstep⟩ | ⟨-, hfinished, -⟩
        · rw [ho] at hstep
          exact lacks_of_step hstep
        · obtain rfl := Outcome.failed.inj (ho.symm.trans hfinished)
          trivial

/-- A failure that is not settled is undone by some declaration. -/
theorem exists_undoes (hlacks : tables.Lacks error) (hsettled : ¬ tables.Settled error) :
    ∃ declaration : Declaration, declaration.endMarker? = none ∧
      ¬ (tables.declareOrKeep declaration).Lacks error := by
  cases error with
  | missingEndMarker | shiftPastEnd | finished => exact absurd trivial hsettled
  | unexpectedSymbol state symbol position =>
      refine ⟨.action state symbol .accept, rfl, fun hlacks' => ?_⟩
      have hentry : (tables.declareOrKeep (.action state symbol .accept)).action? state symbol =
          some .accept := by
        rw [action?_declareOrKeep, hlacks.resolve_left hsettled,
          Declaration.actionFor_eq_some_iff.2 rfl, Option.none_or]
      rcases hlacks' with h | h <;> rw [hentry] at h <;> cases h
  | reduction error =>
      cases error with
      | underflow => exact absurd trivial hsettled
      | missingGoto exposed nonTerminal =>
          refine ⟨.goto exposed nonTerminal startState, rfl, fun hlacks' => ?_⟩
          have hentry : (tables.declareOrKeep (.goto exposed nonTerminal startState)).goto?
              exposed nonTerminal = some startState := by
            rw [goto?_declareOrKeep, show tables.goto? exposed nonTerminal = none from hlacks,
              Declaration.gotoFor_eq_some_iff.2 rfl, Option.none_or]
          exact Option.some_ne_none _ (hentry.symm.trans hlacks')
      | unknownProduction id =>
          refine ⟨.production id ⟨"", .length 0⟩, rfl, fun hlacks' => ?_⟩
          have hentry : (tables.declareOrKeep (.production id ⟨"", .length 0⟩)).production? id =
              some ⟨"", .length 0⟩ := by
            rw [production?_declareOrKeep, show tables.production? id = none from hlacks,
              Declaration.productionFor_eq_some_iff.2 rfl, Option.none_or]
          exact Option.some_ne_none _ (hentry.symm.trans hlacks')

end Tables

/-- More declarations keep whatever is decided: every step that succeeds, every endless
run, and every answer but a failure for an entry that is missing.  Such a failure is not
decided, and some declaration changes the answer. -/
theorem extension_keeps (declarations : List Declaration) :
    (∀ more : List Declaration, (∀ declaration ∈ more, declaration.endMarker? = none) →
      (Tables.ofDeclarations declarations).KeptBy
        (Tables.ofDeclarations (declarations ++ more))) ∧
    ∀ input error, ParsesTo (Tables.ofDeclarations declarations) input (.error error) →
      ¬ (Tables.ofDeclarations declarations).Settled error →
      ∃ more : List Declaration, (∀ declaration ∈ more, declaration.endMarker? = none) ∧
        ¬ ParsesTo (Tables.ofDeclarations (declarations ++ more)) input (.error error) := by
  refine ⟨fun more hmore => (Tables.partOf_append declarations hmore).keptBy, ?_⟩
  intro input error hparses hsettled
  obtain ⟨declaration, hentry, hundone⟩ :=
    Tables.exists_undoes (Tables.lacks_of_parsesTo hparses) hsettled
  refine ⟨[declaration], List.forall_mem_singleton.2 hentry, fun hparses' => hundone ?_⟩
  rw [← Tables.ofDeclarations_concat]
  exact Tables.lacks_of_parsesTo hparses'

/-- An error that was declared stays, since an acceptance for its key is refused.  Where
nothing was declared the answer can be changed. -/
theorem extension_keeps_error :
    let declarations := [.action 0 "x" (.shift 1), .action 1 "$" .error]
    let more := [.action 1 "$" .accept, .goto 0 "E" 1]
    ParsesTo (.ofDeclarations declarations) ["x", "$"] (.error (.unexpectedSymbol 1 "$" 1)) ∧
      ParsesTo (.ofDeclarations (declarations ++ more)) ["x", "$"]
        (.error (.unexpectedSymbol 1 "$" 1)) ∧
      ParsesTo (.ofDeclarations declarations) ["y", "$"] (.error (.unexpectedSymbol 0 "y" 0)) ∧
      ∃ more : List Declaration,
        ¬ ParsesTo (.ofDeclarations (declarations ++ more)) ["y", "$"]
          (.error (.unexpectedSymbol 0 "y" 0)) := by
  intro declarations more
  have hdeclared : ParsesTo (.ofDeclarations declarations) ["x", "$"]
      (.error (.unexpectedSymbol 1 "$" 1)) := ⟨2, by rfl⟩
  have hmissing : ParsesTo (.ofDeclarations declarations) ["y", "$"]
      (.error (.unexpectedSymbol 0 "y" 0)) := ⟨1, by rfl⟩
  obtain ⟨hkept, hchanged⟩ := extension_keeps declarations
  have hsettled : (Tables.ofDeclarations declarations).Settled (.unexpectedSymbol 1 "$" 1) := by
    rfl
  have hunsettled : ¬ (Tables.ofDeclarations declarations).Settled (.unexpectedSymbol 0 "y" 0) :=
    nofun
  obtain ⟨others, -, hothers⟩ := hchanged _ _ hmissing hunsettled
  refine ⟨hdeclared, (hkept more (by decide)).answer _ _ hdeclared ?_, hmissing, others, hothers⟩
  intro error he
  obtain rfl := Except.error.inj he
  exact hsettled

end ShiftReduce
