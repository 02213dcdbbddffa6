import ShiftReduce.Proofs.EndMarker
import ShiftReduce.Proofs.Lockstep

/-!
# A run depends on what it has read

A step looks at one symbol at most, the one at the position of the run.  So while two
inputs agree up to there, a run does the same on both, and only what is left to read
differs (`Run.after_of_take_eq`).  The symbol that ends a run has been looked at but not
read.  The inputs have to agree up to that symbol and not only in front of it.

A run that comes to its end has the same end on every input that agrees so far
(`Run.follows_of_takes`).  If the tables never shift the end-marker, nothing behind the
first one is ever looked at, and the input may be cut there (`Run.follows_of_kept`).
-/

namespace ShiftReduce

namespace Run

variable {tables : Tables} {input other : List Symbol} {run next : Run} {outcome : Outcome}
  {k count : Nat}

/-- The run with other symbols left to read. -/
def withUnread (run : Run) (unread : List Symbol) : Run := { run with unread }

@[simp] theorem trace_withUnread (run : Run) (unread : List Symbol) :
    (run.withUnread unread).trace = run.trace := rfl

/-! ## One step -/

theorem drop_eq_cons {α : Type} {l : List α} {i : Nat} {x : α} (h : l[i]? = some x) :
    l.drop i = x :: l.drop (i + 1) := by
  obtain ⟨hi, rfl⟩ := List.getElem?_eq_some_iff.1 h
  exact List.drop_eq_getElem_cons hi

/-- A step does the same on another input, if the next symbol is the same there. -/
theorem Step.withUnread (hs : run.Step tables outcome next)
    (hsymbol : other[run.position]? = run.unread.head?) :
    (run.withUnread (other.drop run.position)).Step tables outcome
      (next.withUnread (other.drop next.position)) := by
  have hcons {symbol : Symbol} {rest : List Symbol} (hu : run.unread = symbol :: rest) :
      other.drop run.position = symbol :: other.drop (run.position + 1) := by
    rw [hu, List.head?_cons] at hsymbol
    exact drop_eq_cons hsymbol
  cases hs with
  | shift hu ha => exact .shift (hcons hu) ha
  | reduce hu ha hp hd hg => exact .reduce (hcons hu) ha hp hd hg
  | accept hu ha => exact .accept (hcons hu) ha
  | unexpected hu ha => exact .unexpected (hcons hu) ha
  | defect hu ha hfault => exact .defect (hcons hu) ha hfault
  | pastEnd hu =>
      rw [hu, List.head?_nil, List.getElem?_eq_none_iff] at hsymbol
      exact .pastEnd (List.drop_eq_nil_of_le hsymbol)

/-! ## Many steps -/

/-- As long as a run has not read the front that two inputs have in common, it does the
same on both. -/
theorem after_of_take_eq (htake : input.take k = other.take k)
    (hread : ∀ j < count, (Run.after tables j { unread := input }).position < k) :
    Run.after tables count { unread := other } =
        (Run.after tables count { unread := input }).withUnread
          (other.drop (Run.after tables count { unread := input }).position) ∧
      ∀ j < count, Run.outcome tables j { unread := other } =
        Run.outcome tables j { unread := input } := by
  refine lockstep { unread := input } (fun run => run.withUnread (other.drop run.position))
    (fun _ => rfl) fun j hj hs => hs.withUnread ?_
  have hposition := ((Consistent.start input).after tables j).getElem?_position
  rw [← hposition, ← List.getElem?_take_of_lt (hread j hj), ← htake,
    List.getElem?_take_of_lt (hread j hj)]

theorem position_le_of_le (tables : Tables) (run : Run) {i j : Nat} (hij : i ≤ j) :
    (run.after tables i).position ≤ (run.after tables j).position := by
  obtain ⟨more, rfl⟩ := Nat.exists_eq_add_of_le hij
  induction more with
  | zero => exact Nat.le_refl _
  | succ more ih =>
      refine Nat.le_trans (ih (Nat.le_add_right _ _)) ?_
      rcases step_after_cases tables (i + more) run with ⟨-, hs⟩ | ⟨-, -, hsame⟩
      · exact hs.position_le
      · rw [← Nat.add_assoc, hsame]

theorem follows_of_take_eq (htake : input.take k = other.take k)
    (hread : ∀ count, (∀ j < count, Run.outcome tables j { unread := input } = .running) →
      (Run.after tables count { unread := input }).position < k) :
    Follows tables { unread := other } tables { unread := input } := by
  intro count hrun
  have hbefore : ∀ j < count + 1, (Run.after tables j { unread := input }).position < k :=
    fun j hj => hread j fun i hi => hrun i (Nat.lt_of_lt_of_le hi (Nat.le_of_lt_succ hj))
  obtain ⟨hafter, houtcome⟩ := after_of_take_eq htake hbefore
  exact ⟨houtcome count (Nat.lt_succ_self count), by rw [hafter, trace_withUnread]⟩

/-- A run that comes to its end does so on every input that agrees with its own up to
the symbol at which it ends. -/
theorem follows_of_takes {steps : Nat} (h : Run.Takes tables { unread := input } steps)
    (htake : input.take ((Run.after tables steps { unread := input }).position + 1) =
      other.take ((Run.after tables steps { unread := input }).position + 1)) :
    Follows tables { unread := other } tables { unread := input } := by
  refine follows_of_take_eq htake fun count hrun => ?_
  have hle := position_le_of_le tables { unread := input } (Nat.le_of_lt (h.lt_of_running hrun))
  exact Nat.lt_succ_of_le hle

/-! ## The first end-marker -/

/-- Where the end-marker is never shifted, no run gets past the first one. -/
theorem position_le_idxOf
    (hkept : ∀ state next, tables.action? state tables.endMarker ≠ some (.shift next))
    (count : Nat) :
    (Run.after tables count { unread := input }).position ≤ input.idxOf tables.endMarker := by
  induction count with
  | zero => exact Nat.zero_le _
  | succ count ih =>
      have hc := (Consistent.start input).after tables count
      rcases step_after_cases tables count { unread := input } with ⟨-, hs⟩ | ⟨-, -, hsame⟩
      · generalize Run.outcome tables count { unread := input } = outcome at hs
        generalize Run.after tables (count + 1) { unread := input } = next at hs ⊢
        cases hs with
        | shift hu ha =>
            refine Nat.lt_of_le_of_ne ih fun heq => ?_
            obtain rfl := hc.eq_of_position hu heq
            exact hkept _ _ ha
        | reduce | accept | pastEnd | unexpected | defect => exact ih
      · rw [hsame]
        exact ih

theorem follows_of_kept
    (hkept : ∀ state next, tables.action? state tables.endMarker ≠ some (.shift next)) :
    Follows tables { unread := input.take (input.idxOf tables.endMarker + 1) } tables
      { unread := input } := by
  refine follows_of_take_eq (k := input.idxOf tables.endMarker + 1) ?_ fun count _ => ?_
  · rw [List.take_take, Nat.min_self]
  · exact Nat.lt_succ_of_le (position_le_idxOf hkept count)

end Run

/-- An input that is cut behind its first end-marker ends with it. -/
theorem getLast?_take_idxOf {input : List Symbol} {terminal : Symbol} (h : terminal ∈ input) :
    (input.take (input.idxOf terminal + 1)).getLast? = some terminal := by
  have hlt := List.idxOf_lt_length_of_mem h
  rw [List.getLast?_take, if_neg (Nat.succ_ne_zero _), Nat.add_sub_cancel,
    List.getElem?_eq_getElem hlt, List.getElem_idxOf, Option.some_or]

/-- A run depends on what it has read and on the symbol it looks at.  On another input
that agrees so far it does the same, step by step.  If it comes to its end, the other
input is parsed with the same answer.  If the end-marker is never shifted, so is the
input that is cut behind its first end-marker. -/
theorem depends_on_read {tables : Tables} {input : List Symbol}
    (hinput : input.getLast? = some tables.endMarker) :
    ∃ run, Run.start tables input = .ok run ∧
      (∀ other, other.getLast? = some tables.endMarker →
        ∃ run', Run.start tables other = .ok run' ∧
          (∀ k count, input.take k = other.take k →
            (∀ j < count, (run.after tables j).position < k) →
              (run'.after tables count).trace = (run.after tables count).trace ∧
                ∀ j < count, run'.outcome tables j = run.outcome tables j) ∧
          ∀ steps, run.Takes tables steps →
            input.take ((run.after tables steps).position + 1) =
              other.take ((run.after tables steps).position + 1) →
            ∀ allowance, parseWithin tables allowance other = parseWithin tables allowance input) ∧
      ((∀ state next, tables.action? state tables.endMarker ≠ some (.shift next)) →
        ∀ allowance,
          parseWithin tables allowance (input.take (input.idxOf tables.endMarker + 1)) =
            parseWithin tables allowance input) := by
  have hstart {input : List Symbol} (h : input.getLast? = some tables.endMarker) :
      Run.start tables input = .ok { unread := input } := Run.start_eq_ok_iff.2 ⟨h, rfl⟩
  refine ⟨_, hstart hinput, fun other hother => ⟨_, hstart hother, ?_, ?_⟩, ?_⟩
  · intro k count htake hread
    obtain ⟨hafter, houtcome⟩ := Run.after_of_take_eq htake hread
    exact ⟨by rw [hafter, Run.trace_withUnread], houtcome⟩
  · intro steps htakes htake
    exact parseWithin_eq_of_follows (hstart hinput) (hstart hother)
      (Run.follows_of_takes htakes htake)
  · intro hkept
    have hcut := getLast?_take_idxOf (List.mem_of_getLast? hinput)
    exact parseWithin_eq_of_follows (hstart hinput) (hstart hcut) (Run.follows_of_kept hkept)

/-- The run on `x $ y $` is accepted at the first end-marker, and what stands behind it
makes no difference. -/
theorem depends_on_read_single :
    let tables := Tables.ofDeclarations
      [.production 1 ⟨"E", .symbols ["x"]⟩, .action 0 "x" (.shift 2), .action 2 "$" (.reduce 1),
        .action 1 "$" .accept, .goto 0 "E" 1]
    let input := ["x", "$", "y", "$"]
    input.getLast? = some tables.endMarker ∧
      parseWithin tables 3 input =
        some (.ok ⟨[.shift "x" 2, .reduce 1 1, .accept], [0, 1], 1⟩) ∧
      ∀ allowance,
        parseWithin tables allowance ["x", "$", "$"] = parseWithin tables allowance input ∧
          parseWithin tables allowance ["x", "$"] = parseWithin tables allowance input := by
  intro tables input
  have hinput : input.getLast? = some tables.endMarker := by decide
  have htakes : Run.Takes tables { unread := input } 3 := ⟨2, rfl, by decide, by decide⟩
  have hkept : ∀ state next, tables.action? state tables.endMarker ≠ some (.shift next) := by
    intro state next ha
    have hm : ((state, "$"), Action.shift next) ∈
        [((0, "x"), .shift 2), ((2, "$"), .reduce 1), ((1, "$"), .accept)] :=
      OrderedMap.get?_eq_some_iff.1 ha
    simp at hm
  obtain ⟨run, hstart, hothers, hcut⟩ := depends_on_read hinput
  obtain ⟨-, rfl⟩ := Run.start_eq_ok_iff.1 hstart
  obtain ⟨-, -, -, hother⟩ := hothers ["x", "$", "$"] (by decide)
  exact ⟨hinput, rfl, fun allowance => ⟨hother 3 htakes (by decide) allowance,
    hcut hkept allowance⟩⟩

end ShiftReduce
