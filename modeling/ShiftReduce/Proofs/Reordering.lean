import Mathlib.Data.List.Pairwise
import Mathlib.Data.List.Perm.Basic
import ShiftReduce.Proofs.Comparison
import ShiftReduce.Proofs.FirstDeclared
import ShiftReduce.Proofs.Format

/-!
# Declarations in another order

Which declaration is refused depends on the order, and so does the order of the entries.
Whether any is refused does not: none is exactly if no two of the declarations
contradict one another (`Tables.exists_declareAll_iff`), and `Compatible` is symmetric.
Then a look-up is answered by whichever declaration gives its key a value, and not only
by the first.

Of several end-markers the last one counts, so there must not be more than one.  In a
table file these are the lines that start with `eof`.
-/

namespace ShiftReduce

/-! ## Declarations that agree -/

namespace Declaration

/-- Neither of two declarations is refused because of the other.  The numbers of
productions must differ, even if the productions are the same. -/
def Compatible : Declaration → Declaration → Prop
  | .action state terminal what, .action state' terminal' what' =>
    state = state' → terminal = terminal' → what = what'
  | .goto state nonTerminal next, .goto state' nonTerminal' next' =>
    state = state' → nonTerminal = nonTerminal' → next = next'
  | .production id _, .production id' _ => id ≠ id'
  | _, _ => True

variable {d d' : Declaration}

theorem Compatible.symm (h : Compatible d d') : Compatible d' d := by
  cases d <;> cases d'
  case action.action => exact fun hstate hterminal => (h hstate.symm hterminal.symm).symm
  case goto.goto => exact fun hstate hnonTerminal => (h hstate.symm hnonTerminal.symm).symm
  case production.production => exact Ne.symm h
  all_goals trivial

instance : Std.Symm Compatible := ⟨fun _ _ => Compatible.symm⟩

/-- A reading of declarations that gives one value on those that agree. -/
def ReadAlike {β : Type} (f : Declaration → Option β) : Prop :=
  ∀ ⦃d d' value value'⦄, Compatible d d' → f d = some value → f d' = some value' → value = value'

theorem readAlike_actionFor (state : State) (terminal : Symbol) :
    ReadAlike (actionFor state terminal) := by
  intro d d' what what' h hd hd'
  obtain rfl := actionFor_eq_some_iff.1 hd
  obtain rfl := actionFor_eq_some_iff.1 hd'
  exact h rfl rfl

theorem readAlike_gotoFor (state : State) (nonTerminal : Symbol) :
    ReadAlike (gotoFor state nonTerminal) := by
  intro d d' next next' h hd hd'
  obtain rfl := gotoFor_eq_some_iff.1 hd
  obtain rfl := gotoFor_eq_some_iff.1 hd'
  exact h rfl rfl

theorem readAlike_productionFor (id : ProductionId) : ReadAlike (productionFor id) := by
  intro d d' rule rule' h hd hd'
  obtain rfl := productionFor_eq_some_iff.1 hd
  obtain rfl := productionFor_eq_some_iff.1 hd'
  exact absurd rfl h

variable {β : Type} {f : Declaration → Option β} {declarations declarations' : List Declaration}
  {value : β}

/-- If no two declarations contradict one another, any of them tells the first value. -/
theorem findSome?_eq_some_iff (hf : ReadAlike f) (h : declarations.Pairwise Compatible) :
    declarations.findSome? f = some value ↔ ∃ d ∈ declarations, f d = some value := by
  refine ⟨List.exists_of_findSome?_eq_some, ?_⟩
  rintro ⟨d, hmem, hd⟩
  obtain ⟨first, hfirst⟩ := Option.isSome_iff_exists.1
    (List.findSome?_isSome_iff.2 ⟨d, hmem, Option.isSome_iff_exists.2 ⟨value, hd⟩⟩)
  obtain ⟨d', hmem', hd'⟩ := List.exists_of_findSome?_eq_some hfirst
  by_cases heq : d' = d
  · rw [hfirst, ← hd', heq, hd]
  · rw [hfirst, hf (h.forall hmem' hmem heq) hd' hd]

theorem findSome?_eq_of_perm (hf : ReadAlike f) (h : declarations.Pairwise Compatible)
    (hperm : declarations.Perm declarations') :
    declarations.findSome? f = declarations'.findSome? f := by
  refine Option.ext fun value => ?_
  rw [findSome?_eq_some_iff hf h,
    findSome?_eq_some_iff hf ((hperm.pairwise_iff Compatible.symm).1 h)]
  simp only [hperm.mem_iff]

/-- A declaration is refused after others that agree exactly if one of them contradicts it. -/
theorem exists_refusedAfter_iff (h : declarations.Pairwise Compatible) {declaration : Declaration} :
    (∃ error, RefusedAfter declarations declaration error) ↔
      ∃ d ∈ declarations, ¬ Compatible d declaration := by
  constructor
  · rintro ⟨error, hrefused⟩
    cases hrefused with
    | action first differs =>
        obtain ⟨d, hmem, hd⟩ := List.exists_of_findSome?_eq_some first
        obtain rfl := actionFor_eq_some_iff.1 hd
        exact ⟨_, hmem, fun hcompatible => differs (hcompatible rfl rfl)⟩
    | goto first differs =>
        obtain ⟨d, hmem, hd⟩ := List.exists_of_findSome?_eq_some first
        obtain rfl := gotoFor_eq_some_iff.1 hd
        exact ⟨_, hmem, fun hcompatible => differs (hcompatible rfl rfl)⟩
    | production rule given => exact ⟨_, given, fun hcompatible => hcompatible rfl⟩
  · rintro ⟨d, hmem, hcontradicts⟩
    -- only declarations of one kind and for one key can contradict one another
    cases d <;> cases declaration <;> simp only [Compatible, not_true_eq_false, Classical.not_imp,
      ne_eq, not_not] at hcontradicts
    case action.action =>
      obtain ⟨rfl, rfl, differs⟩ := hcontradicts
      have first := (findSome?_eq_some_iff (readAlike_actionFor _ _) h).2
        ⟨_, hmem, actionFor_eq_some_iff.2 rfl⟩
      exact ⟨_, .action first differs⟩
    case goto.goto =>
      obtain ⟨rfl, rfl, differs⟩ := hcontradicts
      have first := (findSome?_eq_some_iff (readAlike_gotoFor _ _) h).2
        ⟨_, hmem, gotoFor_eq_some_iff.2 rfl⟩
      exact ⟨_, .goto first differs⟩
    case production.production =>
      obtain rfl := hcontradicts
      exact ⟨_, .production _ hmem⟩

/-- At most one end-marker is the last one in any order. -/
theorem getLast?_endMarkers_eq_of_perm (hperm : declarations.Perm declarations')
    (once : (declarations.filterMap endMarker?).length ≤ 1) :
    (declarations.filterMap endMarker?).getLast? =
      (declarations'.filterMap endMarker?).getLast? := by
  have hmarkers := hperm.filterMap endMarker?
  match hlist : declarations.filterMap endMarker? with
  | [] => rw [hlist] at hmarkers; rw [hmarkers.nil_eq]
  | [terminal] => rw [hlist] at hmarkers; rw [List.perm_singleton.1 hmarkers.symm]
  | _ :: _ :: _ => simp [hlist] at once

end Declaration

/-! ## Building -/

/-- Two attempts at tables come to the same ones, or both fail, whatever the errors. -/
inductive EndAlike {ε ε' : Type} : Except ε Tables → Except ε' Tables → Prop where
  | built {a b : Tables} (same : a.same b = true) : EndAlike (.ok a) (.ok b)
  | refused (error : ε) (error' : ε') : EndAlike (.error error) (.error error')

theorem EndAlike.of_exists {ε ε' : Type} {x : Except ε Tables} {y : Except ε' Tables}
    (forward : ∀ a, x = .ok a → ∃ b, y = .ok b ∧ a.same b = true)
    (backward : ∀ b, y = .ok b → ∃ a, x = .ok a) : EndAlike x y := by
  cases x with
  | ok a =>
      obtain ⟨b, rfl, same⟩ := forward a rfl
      exact .built same
  | error e =>
      cases y with
      | ok b =>
          obtain ⟨a, h⟩ := backward b rfl
          cases h
      | error e' => exact .refused e e'

namespace Tables

open Declaration

variable {built : Tables} {declarations declarations' : List Declaration}

/-- After declarations that agree one more is taken exactly if it agrees with each of them. -/
theorem exists_declare_iff (h : declarations.Pairwise Compatible) {declaration : Declaration} :
    (∃ extended, (ofDeclarations declarations).declare declaration = .ok extended) ↔
      ∀ d ∈ declarations, Compatible d declaration := by
  have hrefused : (∃ error, (ofDeclarations declarations).declare declaration = .error error) ↔
      ∃ d ∈ declarations, ¬ Compatible d declaration := by
    simp only [declare_eq_error_iff, (firstDeclared_ofDeclarations declarations).refuses_iff]
    exact exists_refusedAfter_iff h
  rw [← not_iff_not]
  push Not
  rw [← hrefused]
  cases (ofDeclarations declarations).declare declaration <;> simp

/-- No declaration is refused exactly if no two of them contradict one another. -/
theorem exists_declareAll_iff :
    (∃ built, empty.declareAll declarations = .ok built) ↔ declarations.Pairwise Compatible := by
  induction declarations using List.reverseRecOn with
  | nil => simp
  | append_singleton front last ih =>
      rw [List.pairwise_append, ← ih]
      constructor
      · rintro ⟨built, h⟩
        obtain ⟨middle, hfront, hlast⟩ := declareAll_append_eq_ok_iff.1 h
        obtain rfl := eq_ofDeclarations hfront
        rw [declareAll_singleton] at hlast
        have hagree := (exists_declare_iff (ih.1 ⟨_, hfront⟩)).1 ⟨built, hlast⟩
        exact ⟨⟨_, hfront⟩, List.pairwise_singleton .., by simpa using hagree⟩
      · rintro ⟨⟨middle, hfront⟩, -, hagree⟩
        obtain ⟨built, hlast⟩ := (exists_declare_iff (ih.1 ⟨_, hfront⟩)).2
          fun d hmem => hagree d hmem last List.mem_cons_self
        obtain rfl := eq_ofDeclarations hfront
        rw [← declareAll_singleton] at hlast
        exact ⟨built, declareAll_append_eq_ok_iff.2 ⟨_, hfront, hlast⟩⟩

theorem answerAlike_of_perm (h : declarations.Pairwise Compatible)
    (hperm : declarations.Perm declarations')
    (once : (declarations.filterMap endMarker?).length ≤ 1) :
    (ofDeclarations declarations).AnswerAlike (ofDeclarations declarations') := by
  have hfirst := firstDeclared_ofDeclarations declarations
  have hfirst' := firstDeclared_ofDeclarations declarations'
  constructor
  · rw [hfirst.endMarker, hfirst'.endMarker, getLast?_endMarkers_eq_of_perm hperm once]
  · intro state terminal
    rw [hfirst.action, hfirst'.action]
    exact findSome?_eq_of_perm (readAlike_actionFor state terminal) h hperm
  · intro state nonTerminal
    rw [hfirst.goto, hfirst'.goto]
    exact findSome?_eq_of_perm (readAlike_gotoFor state nonTerminal) h hperm
  · intro id
    rw [hfirst.production, hfirst'.production]
    exact findSome?_eq_of_perm (readAlike_productionFor id) h hperm

/-- Declarations that build tables build the same ones in another order. -/
theorem exists_declareAll_of_perm (hperm : declarations.Perm declarations')
    (once : (declarations.filterMap endMarker?).length ≤ 1)
    (h : empty.declareAll declarations = .ok built) :
    ∃ built', empty.declareAll declarations' = .ok built' ∧ built.same built' = true := by
  have hagree := exists_declareAll_iff.1 ⟨built, h⟩
  obtain ⟨built', h'⟩ := exists_declareAll_iff.2 ((hperm.pairwise_iff Compatible.symm).1 hagree)
  obtain rfl := eq_ofDeclarations h
  obtain rfl := eq_ofDeclarations h'
  exact ⟨_, h', same_iff_answerAlike.2 (answerAlike_of_perm hagree hperm once)⟩

theorem endAlike_of_perm (hperm : declarations.Perm declarations')
    (once : (declarations.filterMap endMarker?).length ≤ 1) :
    EndAlike (empty.declareAll declarations) (empty.declareAll declarations') := by
  refine .of_exists (fun _ h => exists_declareAll_of_perm hperm once h) fun _ h => ?_
  rw [(hperm.filterMap endMarker?).length_eq] at once
  obtain ⟨a, ha, -⟩ := exists_declareAll_of_perm hperm.symm once h
  exact ⟨a, ha⟩

end Tables

/-! ## Loading -/

namespace TableFile

open ShiftReduce.Text

/-- The line starts with the word for the end-marker. -/
def isEndMarkerLine (line : String) : Bool := (words line).head? = some "eof"

variable {lineWords : List String} {steps : List Declaration}

/-- A line declares at most one end-marker, and only if it starts with `eof`. -/
theorem LineDeclares.length_endMarkers_le (h : LineDeclares lineWords steps) :
    (steps.filterMap Declaration.endMarker?).length ≤
      if lineWords.head? = some "eof" then 1 else 0 := by
  cases h with
  | blank => simp
  | comment => simp
  | declaration declares ends =>
      cases declares with
      | endMarker => simp [Declaration.endMarker?]
      | rule | length | action | goto => simp [Declaration.endMarker?]

/-- The lines declare at most as many end-markers as start with `eof`. -/
theorem length_endMarkers_le {lines : List String} {steps : List (List Declaration)}
    (h : List.Forall₂ LineDeclares (lines.map words) steps) :
    (steps.flatten.filterMap Declaration.endMarker?).length ≤ lines.countP isEndMarkerLine := by
  induction lines generalizing steps with
  | nil => cases h; simp
  | cons line rest ih =>
      cases h with
      | cons hline hrest =>
          have hone := hline.length_endMarkers_le
          have hothers := ih hrest
          rw [List.flatten_cons, List.filterMap_append, List.length_append, List.countP_cons]
          simp only [isEndMarkerLine, decide_eq_true_eq] at hothers ⊢
          omega

variable {text text' : String} {tables : Tables}

/-- A text that is loaded is loaded to the same tables with its lines in another order. -/
theorem exists_read_of_perm (hperm : (fileLines text).Perm (fileLines text'))
    (once : (fileLines text).countP isEndMarkerLine ≤ 1) (h : read text = .ok tables) :
    ∃ tables', read text' = .ok tables' ∧ tables.same tables' = true := by
  rw [read_eq_applyLines] at h ⊢
  obtain ⟨steps, hlines, hbuild⟩ := applyLines_eq_ok_iff.1 h
  -- what the lines declare moves with them
  obtain ⟨steps', hlines', hsteps⟩ := List.perm_comp_forall₂ (hperm.symm.map words) hlines
  obtain ⟨tables', hbuild', hsame⟩ := Tables.exists_declareAll_of_perm hsteps.symm.flatten
    (Nat.le_trans (length_endMarkers_le hlines) once) hbuild
  exact ⟨tables', applyLines_eq_ok_iff.2 ⟨steps', hlines', hbuild'⟩, hsame⟩

theorem endAlike_read_of_perm (hperm : (fileLines text).Perm (fileLines text'))
    (once : (fileLines text).countP isEndMarkerLine ≤ 1) : EndAlike (read text) (read text') := by
  refine .of_exists (fun _ h => exists_read_of_perm hperm once h) fun _ h => ?_
  rw [hperm.countP_eq] at once
  obtain ⟨a, ha, -⟩ := exists_read_of_perm hperm.symm once h
  exact ⟨a, ha⟩

end TableFile

/-- The order of declarations does not count.  In another order they build the same
tables on the same end-marker, or some of them are refused again.  Nor does the order
of the lines of a table file count, if no more than one starts with `eof`. -/
theorem order_irrelevant :
    (∀ (endMarker : Symbol) (declarations declarations' : List Declaration),
      (∀ declaration ∈ declarations, declaration.endMarker? = none) →
      declarations.Perm declarations' →
        EndAlike (({ endMarker } : Tables).declareAll declarations)
          (({ endMarker } : Tables).declareAll declarations')) ∧
      ∀ text text' : String, (Text.fileLines text).Perm (Text.fileLines text') →
        (Text.fileLines text).countP TableFile.isEndMarkerLine ≤ 1 →
          EndAlike (TableFile.read text) (TableFile.read text') := by
  refine ⟨fun endMarker declarations declarations' hentries hperm => ?_,
    fun text text' => TableFile.endAlike_read_of_perm⟩
  -- the end-marker is one declaration more, before the others
  have hstart (list : List Declaration) :
      ({ endMarker } : Tables).declareAll list =
        Tables.empty.declareAll (.endMarker endMarker :: list) := by
    rw [Tables.declareAll_cons]
    rfl
  have hnone : declarations.filterMap Declaration.endMarker? = [] :=
    List.filterMap_eq_nil_iff.2 hentries
  rw [hstart, hstart]
  refine Tables.endAlike_of_perm (hperm.cons _) ?_
  rw [List.filterMap_cons, hnone]
  exact Nat.le_refl 1

/-- A conflict is found in either order, and a file is loaded in either order of its lines. -/
theorem order_irrelevant_swapped :
    let conflict : List Declaration := [.action 0 "x" .accept, .goto 0 "E" 1, .action 0 "x" .error]
    let start : Tables := { endMarker := "e" }
    (∃ error error', start.declareAll conflict = .error error ∧
      start.declareAll conflict.reverse = .error error' ∧ error ≠ error') ∧
    EndAlike (start.declareAll conflict) (start.declareAll conflict.reverse) ∧
    EndAlike (TableFile.read "eof e\ngoto 0 E 1\ngoto 2 E 3\n")
      (TableFile.read "goto 2 E 3\neof e\ngoto 0 E 1") := by
  intro conflict start
  refine ⟨⟨.actionConflict 0 "x" .accept .error, .actionConflict 0 "x" .error .accept,
    rfl, rfl, by decide⟩, ?_, ?_⟩
  · exact order_irrelevant.1 "e" conflict conflict.reverse (by decide) (by decide)
  · exact order_irrelevant.2 _ _ (by decide) (by decide)

end ShiftReduce
