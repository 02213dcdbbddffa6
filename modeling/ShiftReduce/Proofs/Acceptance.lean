import ShiftReduce.Proofs.Divergence
import ShiftReduce.Proofs.LifeCycle
import ShiftReduce.TableFile.Load

/-!
# Where a run accepts

A run accepts where its tables say so, at the next symbol and with the state on top
(`accepted_at_entry`).  It does not ask whether that symbol is the end-marker, and
nothing that builds tables does either.  A table file may declare an acceptance at
any terminal, and then a run leaves the rest of its input unread
(`accepted_before_endMarker`).

Tables that declare acceptance at the end-marker only are accepted there, and
nothing in front of it is left unread (`accepted_on_endMarker`).
-/

namespace ShiftReduce

/-- An accepted run stops at a symbol at which the tables accept, with the state on
top of its stack. -/
theorem accepted_at_entry {tables : Tables} {allowance : Nat} {input : List Symbol}
    {trace : Trace} (h : parseWithin tables allowance input = some (.ok trace)) :
    ∃ state terminal, trace.stack.getLast? = some state ∧
      input[trace.position]? = some terminal ∧ tables.action? state terminal = some .accept := by
  obtain ⟨run, hstart, last, -, -, hend, rfl⟩ := parseWithin_eq_ok_iff.1 h
  obtain ⟨-, rfl⟩ := Run.start_eq_ok_iff.1 hstart
  obtain ⟨terminal, rest, hu, ha, he⟩ := Run.accept_of_outcome hend
  have hposition := ((Run.Consistent.start input).after tables last).getElem?_position
  rw [hu, List.head?_cons] at hposition
  refine ⟨_, terminal, ?_, ?_, ha⟩
  · rw [he, Run.trace, List.getLast?_reverse]
    exact Run.head?_stack _
  · rw [he]
    exact hposition

/-- If the tables accept at the end-marker only, an accepted run stops at an
end-marker of its input. -/
theorem accepted_on_endMarker {tables : Tables}
    (honly : ∀ state terminal, tables.action? state terminal = some .accept →
      terminal = tables.endMarker)
    {allowance : Nat} {input : List Symbol} {trace : Trace}
    (h : parseWithin tables allowance input = some (.ok trace)) :
    trace.position < input.length ∧ input[trace.position]? = some tables.endMarker := by
  obtain ⟨state, terminal, -, hterminal, ha⟩ := accepted_at_entry h
  obtain rfl := honly state terminal ha
  exact ⟨(List.getElem?_eq_some_iff.1 hterminal).1, hterminal⟩

/-- The tables with an acceptance at `$` only. -/
theorem accepted_on_endMarker_single :
    let tables := Tables.ofDeclarations [.action 0 "x" (.shift 1), .action 1 "$" .accept]
    parseWithin tables 2 ["x", "$"] =
        some (.ok ⟨[.shift "x" 1, .accept], [0, 1], 1⟩) ∧
      ["x", "$"][1]? = some tables.endMarker := by
  intro tables
  have honly : ∀ state terminal, tables.action? state terminal = some .accept →
      terminal = tables.endMarker := by
    intro state terminal ha
    have hm : ((state, terminal), Action.accept) ∈
        [((0, "x"), .shift 1), ((1, "$"), .accept)] := OrderedMap.get?_eq_some_iff.1 ha
    simp at hm
    exact hm.2
  have hparse : parseWithin tables 2 ["x", "$"] =
      some (.ok ⟨[.shift "x" 1, .accept], [0, 1], 1⟩) := by rfl
  exact ⟨hparse, (accepted_on_endMarker honly hparse).2⟩

/-- A table file can have a run accept in front of the end-marker. -/
theorem accepted_before_endMarker :
    ¬ ∀ (text : String) (tables : Tables), TableFile.read text = .ok tables →
      ∀ (allowance : Nat) (input : List Symbol) (trace : Trace),
        parseWithin tables allowance input = some (.ok trace) →
        trace.position < input.length ∧ input[trace.position]? = some tables.endMarker := by
  intro h
  have hread : TableFile.read "action 0 x acc" =
      .ok (.ofDeclarations [.action 0 "x" .accept]) := by rfl
  have hparse : parseWithin (.ofDeclarations [.action 0 "x" .accept]) 1 ["x", "$"] =
      some (.ok ⟨[.accept], [0], 0⟩) := by rfl
  obtain ⟨-, hsymbol⟩ := h _ _ hread _ _ _ hparse
  exact absurd hsymbol (by decide)

end ShiftReduce
