import Mathlib.Order.WellFounded
import ShiftReduce.Proofs.Repetition
import ShiftReduce.Proofs.Steps
import ShiftReduce.Tables.Declaration

/-!
# Runs that never end

A run never ends exactly if it *recurs* (`Run.endless_iff`): without reading it
comes back to a stack it had before, or it grows on a stack that stays below, and
comes to the same state on top.

An endless run stops reading at some time, since its input is finite.  From then
on it only reduces, so its stacks come one from the other by `Replaces`, and
`exists_recurrence` applies.

The other direction is pumping.  What a run does does not depend on the states
that stay below (`Run.AlikeAbove`).  A run that recurs has the same states above
some base as before, so it can do the same again, and it recurs again.

Stacks have their top first, so what stays below is a suffix.
-/

namespace ShiftReduce

namespace Run

def Endless (tables : Tables) (run : Run) : Prop := ∀ k, run.outcome tables k = .running

/-- A run goes on up to a step, and since an earlier one it has read nothing and
has come back to the same stack, or to the same state on top of a stack that has
stayed below. -/
structure Recurs (tables : Tables) (run : Run) (i j : Nat) : Prop where
  lt : i < j
  running : ∀ k < j, run.outcome tables k = .running
  position : (run.after tables i).position = (run.after tables j).position
  stack : (run.after tables i).stack = (run.after tables j).stack ∨
    ((∀ k, i ≤ k → k ≤ j → (run.after tables i).stack <:+ (run.after tables k).stack) ∧
      (run.after tables j).top = (run.after tables i).top)

variable {tables : Tables} {run next : Run}

/-! ## Moves that read nothing -/

/-- A move leaves two states at least. -/
theorem Step.one_lt_length (hs : run.Step tables .running next) : 1 < next.stack.length := by
  cases hs with
  | shift => simpa using List.length_pos_of_ne_nil run.stack_ne_nil
  | reduce => simp

/-- A move reads from the front, and counts what it reads. -/
theorem Step.unread_suffix (hs : run.Step tables .running next) :
    next.unread <:+ run.unread ∧
      next.position + next.unread.length = run.position + run.unread.length := by
  cases hs with
  | shift hu ha =>
      rw [shift_unread, shift_position, hu, List.length_cons]
      exact ⟨List.suffix_cons _ _, by omega⟩
  | reduce => exact ⟨List.suffix_rfl, rfl⟩

/-- A move that reads nothing replaces the topmost states by a goto state. -/
theorem Step.replaces (hs : run.Step tables .running next) (hu : next.unread = run.unread) :
    Replaces run.stack next.stack ∧ next.top ∈ tables.gotos.toList.map Prod.snd := by
  cases hs with
  | shift hunread ha =>
      rw [shift_unread, hunread] at hu
      exact absurd hu (List.ne_cons_self)
  | @reduce symbol rest id production exposed below state hunread ha hp hd hg =>
      constructor
      · refine ⟨production.size, state, ?_, by rw [hd, replace_stack]⟩
        refine Nat.lt_of_not_le fun hle => ?_
        rw [List.drop_eq_nil_of_le hle] at hd
        cases hd
      · have hm : ((exposed, production.lhs), state) ∈ tables.gotos.toList :=
          OrderedMap.get?_eq_some_iff.1 hg
        exact List.mem_map_of_mem (f := Prod.snd) hm

/-- As long as a run goes on it reads from the front, and counts what it reads. -/
theorem after_unread_suffix {i j : Nat} (hij : i ≤ j)
    (hrun : ∀ k < j, run.outcome tables k = .running) :
    (run.after tables j).unread <:+ (run.after tables i).unread ∧
      (run.after tables j).position + (run.after tables j).unread.length =
        (run.after tables i).position + (run.after tables i).unread.length := by
  induction j, hij using Nat.le_induction with
  | base => exact ⟨List.suffix_rfl, rfl⟩
  | succ j hij ih =>
      obtain ⟨hsuffix, hcount⟩ := ih fun k hk => hrun k (Nat.lt_succ_of_lt hk)
      obtain ⟨hsuffix', hcount'⟩ := (step_of_running (hrun j (Nat.lt_succ_self j))).unread_suffix
      exact ⟨hsuffix'.trans hsuffix, hcount'.trans hcount⟩

/-- A run whose position is the same as before has read nothing in between. -/
theorem unread_eq_of_position_eq {i j : Nat} (hrun : ∀ k < j, run.outcome tables k = .running)
    (hpos : (run.after tables i).position = (run.after tables j).position) {k : Nat}
    (hik : i ≤ k) (hkj : k ≤ j) :
    (run.after tables k).unread = (run.after tables i).unread ∧
      (run.after tables k).position = (run.after tables i).position := by
  obtain ⟨hsuffix, hcount⟩ := after_unread_suffix hik fun m hm => hrun m (Nat.lt_of_lt_of_le hm hkj)
  obtain ⟨hsuffix', hcount'⟩ := after_unread_suffix hkj hrun
  have hle := hsuffix.length_le
  have hle' := hsuffix'.length_le
  exact ⟨hsuffix.eq_of_length (by omega), by omega⟩

/-! ## Endless runs recur -/

/-- An endless run stops reading. -/
theorem Endless.exists_last_read (h : run.Endless tables) :
    ∃ last, ∀ k, last ≤ k → (run.after tables k).unread = (run.after tables last).unread := by
  obtain ⟨last, hmin⟩ : ∃ last, ∀ k,
      (run.after tables last).unread.length ≤ (run.after tables k).unread.length :=
    ⟨_, fun k => Function.argmin_le (fun k => (run.after tables k).unread.length) k⟩
  refine ⟨last, fun k hk => ?_⟩
  obtain ⟨hsuffix, -⟩ := after_unread_suffix hk fun m _ => h m
  exact hsuffix.eq_of_length (Nat.le_antisymm hsuffix.length_le (hmin k))

theorem head?_stack (run : Run) : run.stack.head? = some run.top := by
  rw [stack_eq_cons, List.head?_cons]

theorem Endless.exists_recurs (h : run.Endless tables) : ∃ i j, run.Recurs tables i j := by
  obtain ⟨last, hlast⟩ := h.exists_last_read
  have hunread : ∀ k, (run.after tables (last + k)).unread = (run.after tables last).unread :=
    fun k => hlast _ (Nat.le_add_right last k)
  have hmove := fun k => (step_of_running (h (last + k))).replaces
    ((hunread (k + 1)).trans (hunread k).symm)
  obtain ⟨stack, hstack⟩ : ∃ stack : Nat → List State,
      ∀ k, stack k = (run.after tables (last + k)).stack := ⟨_, fun _ => rfl⟩
  have hreplaces : ∀ k, Replaces (stack k) (stack (k + 1)) := by
    intro k
    rw [hstack, hstack]
    exact (hmove k).1
  -- a state on top is the first one or one that some goto leads to
  have hfinite : (insert (stack 0).head?
      {top | top ∈ (tables.gotos.toList.map Prod.snd).map some}).Finite :=
    (List.finite_toSet _).insert _
  obtain ⟨i, j, hij, heq⟩ := exists_recurrence hreplaces hfinite (by
    intro k
    cases k with
    | zero => exact .inl rfl
    | succ k =>
        rw [hstack (k + 1), head?_stack]
        exact .inr (List.mem_map_of_mem (f := some) (hmove k).2))
  rw [hstack i, hstack j, head?_stack, head?_stack, Option.some.injEq] at heq
  refine ⟨last + i, last + j, Nat.add_lt_add_left hij last, fun k _ => h k, ?_, ?_⟩
  · obtain ⟨-, hcount⟩ := after_unread_suffix (Nat.le_add_right last i) fun k _ => h k
    obtain ⟨-, hcount'⟩ := after_unread_suffix (Nat.le_add_right last j) fun k _ => h k
    rw [hunread] at hcount hcount'
    omega
  · rcases heq with heq | ⟨hbelow, htop⟩
    · exact .inl heq
    · refine .inr ⟨fun k hik _ => ?_, htop⟩
      obtain ⟨d, rfl⟩ := Nat.exists_eq_add_of_le (Nat.le_trans (Nat.le_add_right last i) hik)
      rw [← hstack d]
      exact hbelow d (Nat.le_of_add_le_add_left hik)

/-! ## Runs that recur are endless -/

/-- Two runs with the same symbols left have the same states above their bases. -/
structure AlikeAbove (base base' : List State) (run run' : Run) : Prop where
  going : run'.finished = false
  unread : run'.unread = run.unread
  stack : ∃ upper, upper ≠ [] ∧ run.stack = upper ++ base ∧ run'.stack = upper ++ base'

/-- A pop that stops above the base exposes a state above it. -/
theorem exposed_above {upper base below : List State} {count : Nat} {exposed : State}
    (hlt : count < upper.length) (hd : (upper ++ base).drop count = exposed :: below) :
    ∃ low, upper.drop count = exposed :: low ∧ below = low ++ base := by
  rw [List.drop_append_of_le_length (Nat.le_of_lt hlt)] at hd
  cases hc : upper.drop count with
  | nil => exact absurd (List.drop_eq_nil_iff.1 hc) (Nat.not_le_of_lt hlt)
  | cons state low =>
      rw [hc, List.cons_append, List.cons.injEq] at hd
      obtain ⟨rfl, rfl⟩ := hd
      exact ⟨low, rfl, rfl⟩

namespace AlikeAbove

variable {base base' : List State} {run' : Run}

theorem top_eq (h : AlikeAbove base base' run run') : run'.top = run.top := by
  obtain ⟨upper, hne, hstack, hstack'⟩ := h.stack
  cases upper with
  | nil => exact absurd rfl hne
  | cons state upper => rw [top_of_stack hstack, top_of_stack hstack']

/-- What one run does above its base the other one does above its own. -/
theorem step (h : AlikeAbove base base' run run') (hs : run.Step tables .running next)
    (hdeep : base.length + 1 < next.stack.length) :
    ∃ next', run'.Step tables .running next' ∧ AlikeAbove base base' next next' := by
  obtain ⟨upper, hne, hstack, hstack'⟩ := h.stack
  cases hs with
  | @shift symbol rest state hu ha =>
      rw [← h.unread] at hu
      rw [← h.top_eq] at ha
      refine ⟨_, .shift hu ha, h.going, rfl, state :: upper, List.cons_ne_nil _ _, ?_, ?_⟩
      · rw [shift_stack, hstack, List.cons_append]
      · rw [shift_stack, hstack', List.cons_append]
  | @reduce symbol rest id production exposed below state hu ha hp hd hg =>
      rw [← h.unread] at hu
      rw [← h.top_eq] at ha
      have hlength := congrArg List.length hd
      rw [List.length_drop, hstack, List.length_append, List.length_cons] at hlength
      rw [replace_stack, List.length_cons, List.length_cons] at hdeep
      have hsize : production.size < upper.length := by omega
      rw [hstack] at hd
      obtain ⟨low, hlow, rfl⟩ := exposed_above hsize hd
      have hd' : run'.stack.drop production.size = exposed :: (low ++ base') := by
        rw [hstack', List.drop_append_of_le_length (Nat.le_of_lt hsize), hlow, List.cons_append]
      exact ⟨_, .reduce hu ha hp hd' hg, h.going, h.unread, state :: exposed :: low,
        List.cons_ne_nil _ _, rfl, rfl⟩

/-- The other run goes on as long as the one that stays above its base. -/
theorem after (h : AlikeAbove base base' run run') {count : Nat}
    (hrun : ∀ k < count, run.outcome tables k = .running)
    (hdeep : ∀ k < count, base.length + 1 < (run.after tables (k + 1)).stack.length) :
    (∀ k < count, run'.outcome tables k = .running) ∧
      AlikeAbove base base' (run.after tables count) (run'.after tables count) := by
  induction count with
  | zero => exact ⟨fun k hk => absurd hk (Nat.not_lt_zero k), h⟩
  | succ count ih =>
      have hlast := Nat.lt_succ_self count
      obtain ⟨hrun', halike⟩ := ih (fun k hk => hrun k (Nat.lt_succ_of_lt hk))
        (fun k hk => hdeep k (Nat.lt_succ_of_lt hk))
      obtain ⟨next', hs, halike'⟩ := halike.step (step_of_running (hrun count hlast))
        (hdeep count hlast)
      have he := hs.step_eq halike.going
      rw [step_after, Prod.mk.injEq] at he
      refine ⟨fun k hk => ?_, he.2 ▸ halike'⟩
      rcases Nat.lt_succ_iff_lt_or_eq.1 hk with hk | rfl
      · exact hrun' k hk
      · exact he.1

end AlikeAbove

/-- A run that has stayed above a base and has the states it had above it again,
perhaps over others, can do the same once more, and so it never ends. -/
theorem endless_of_pumping {upper rest base : List State} {count : Nat}
    (hgoing : run.finished = false) (hne : upper ≠ []) (hstack : run.stack = upper ++ base)
    (hcount : 0 < count) (hrun : ∀ k < count, run.outcome tables k = .running)
    (hdeep : ∀ k < count, base.length + 1 < (run.after tables (k + 1)).stack.length)
    (hunread : (run.after tables count).unread = run.unread)
    (hagain : (run.after tables count).stack = upper ++ (rest ++ base)) :
    run.Endless tables := by
  have hrounds : ∀ rounds, (∀ k < rounds * count, run.outcome tables k = .running) ∧
      ∃ base', (run.after tables (rounds * count)).finished = false ∧
        (run.after tables (rounds * count)).unread = run.unread ∧
        (run.after tables (rounds * count)).stack = upper ++ base' := by
    intro rounds
    induction rounds with
    | zero =>
        rw [Nat.zero_mul]
        exact ⟨fun k hk => absurd hk (Nat.not_lt_zero k), base, hgoing, rfl, hstack⟩
    | succ rounds ih =>
        obtain ⟨hbefore, base', hgoing', hunread', hstack'⟩ := ih
        have halike : AlikeAbove base base' run (run.after tables (rounds * count)) :=
          ⟨hgoing', hunread', upper, hne, hstack, hstack'⟩
        obtain ⟨hround, hafter⟩ := halike.after hrun hdeep
        rw [← after_add, ← Nat.succ_mul] at hafter
        constructor
        · intro k hk
          rcases Nat.lt_or_ge k (rounds * count) with hlt | hge
          · exact hbefore k hlt
          · obtain ⟨d, rfl⟩ := Nat.exists_eq_add_of_le hge
            rw [Nat.succ_mul] at hk
            rw [outcome_add]
            exact hround d (Nat.lt_of_add_lt_add_left hk)
        · obtain ⟨upper', -, heq, heq'⟩ := hafter.stack
          have hupper : upper ++ rest = upper' := by
            rw [hagain, ← List.append_assoc] at heq
            exact List.append_cancel_right heq
          refine ⟨rest ++ base', hafter.going, hafter.unread.trans hunread, ?_⟩
          rw [heq', ← hupper, List.append_assoc]
  intro k
  refine (hrounds (k + 1)).1 k ?_
  calc k < k + 1 := Nat.lt_succ_self k
    _ ≤ (k + 1) * count := Nat.le_mul_of_pos_right _ hcount

theorem endless_of_after {i : Nat} (hrun : ∀ k < i, run.outcome tables k = .running)
    (h : (run.after tables i).Endless tables) : run.Endless tables := by
  intro k
  rcases Nat.lt_or_ge k i with hlt | hge
  · exact hrun k hlt
  · obtain ⟨d, rfl⟩ := Nat.exists_eq_add_of_le hge
    rw [outcome_add]
    exact h d

/-- A run that has stayed above a base and has the states it had above it again. -/
theorem endless_of_pumping_after (upper rest base : List State) {i j : Nat} (hij : i < j)
    (hrun : ∀ k < j, run.outcome tables k = .running)
    (hpos : (run.after tables i).position = (run.after tables j).position) (hne : upper ≠ [])
    (hstack : (run.after tables i).stack = upper ++ base)
    (hdeep : ∀ k, i < k → k ≤ j → base.length + 1 < (run.after tables k).stack.length)
    (hagain : (run.after tables j).stack = upper ++ (rest ++ base)) : run.Endless tables := by
  obtain ⟨d, rfl⟩ := Nat.exists_eq_add_of_lt hij
  have hgoing : (run.after tables i).finished = false :=
    not_finished_of_step_eq (step_after tables i run) (.inl (hrun i hij))
  have hunread := (unread_eq_of_position_eq hrun hpos (Nat.le_of_lt hij) (Nat.le_refl _)).1
  rw [Nat.add_assoc, after_add] at hagain hunread
  refine endless_of_after (fun k hk => hrun k (Nat.lt_trans hk hij)) ?_
  refine endless_of_pumping hgoing hne hstack (Nat.succ_pos d) ?_ ?_ hunread hagain
  · intro k hk
    rw [← outcome_add]
    exact hrun (i + k) (by omega)
  · intro k hk
    rw [← after_add]
    exact hdeep (i + (k + 1)) (by omega) (by omega)

/-- A run that comes back to a stack without reading never ends. -/
theorem endless_of_return {i j : Nat} (hij : i < j)
    (hrun : ∀ k < j, run.outcome tables k = .running)
    (hpos : (run.after tables i).position = (run.after tables j).position)
    (hstack : (run.after tables i).stack = (run.after tables j).stack) : run.Endless tables := by
  refine endless_of_pumping_after (run.after tables i).stack [] [] hij hrun hpos
    (run.after tables i).stack_ne_nil (List.append_nil _).symm ?_ ?_
  · intro k hik hkj
    cases k with
    | zero => exact absurd hik (Nat.not_lt_zero i)
    | succ k => exact (step_of_running (hrun k hkj)).one_lt_length
  · rw [List.append_nil, List.append_nil, hstack]

theorem Recurs.endless {i j : Nat} (h : run.Recurs tables i j) : run.Endless tables := by
  rcases h.stack with heq | ⟨hbelow, htop⟩
  · exact endless_of_return h.lt h.running h.position heq
  · by_cases hdeep : ∀ k, i < k → k ≤ j →
        (run.after tables i).stack.length < (run.after tables k).stack.length
    · -- the state on top is pumped
      obtain ⟨state, below, hstack⟩ : ∃ state below, (run.after tables i).stack = state :: below :=
        ⟨_, _, (run.after tables i).stack_eq_cons⟩
      obtain ⟨upper, hupper⟩ := hbelow j (Nat.le_of_lt h.lt) (Nat.le_refl j)
      have hlength := hdeep j h.lt (Nat.le_refl j)
      rw [← hupper, List.length_append] at hlength
      cases upper with
      | nil => exact absurd hlength (by simp)
      | cons state' upper =>
          obtain rfl : state' = state := by
            rw [← top_of_stack hupper.symm, htop, top_of_stack hstack]
          refine endless_of_pumping_after [state'] (upper ++ [state']) below h.lt h.running
            h.position (List.cons_ne_nil _ _) hstack ?_ ?_
          · intro k hik hkj
            have hk := hdeep k hik hkj
            rw [hstack] at hk
            exact hk
          · rw [← hupper, hstack, List.append_assoc]
            rfl
    · -- the run has been back at the stack itself
      simp only [not_forall] at hdeep
      obtain ⟨k, hik, hkj, hle⟩ := hdeep
      have heq : (run.after tables i).stack = (run.after tables k).stack :=
        (hbelow k (Nat.le_of_lt hik) hkj).eq_of_length_le (Nat.le_of_not_lt hle)
      have hpos := (unread_eq_of_position_eq h.running h.position (Nat.le_of_lt hik) hkj).2
      exact endless_of_return hik (fun m hm => h.running m (Nat.lt_of_lt_of_le hm hkj))
        hpos.symm heq

/-- A run is endless exactly if it recurs. -/
theorem endless_iff : run.Endless tables ↔ ∃ i j, run.Recurs tables i j := by
  constructor
  · exact Endless.exists_recurs
  · rintro ⟨i, j, h⟩
    exact h.endless

/-- A run is endless exactly if no allowance gives an answer. -/
theorem endless_iff_answerWithin :
    run.Endless tables ↔ ∀ allowance, run.answerWithin tables allowance = none := by
  constructor
  · intro h allowance
    rw [answerWithin, advance_eq_of_running fun k _ => h k]
  · intro h k
    by_cases hrun : ∀ m < k + 1, run.outcome tables m = .running
    · exact hrun k (Nat.lt_succ_self k)
    · obtain ⟨last, -, hbefore, hend⟩ := exists_end hrun
      have hnone := h (last + 1)
      rw [answerWithin, advance_eq_of_end 0 hbefore hend] at hnone
      cases ho : run.outcome tables last with
      | running => exact absurd ho hend
      | accepted => simp [ho] at hnone
      | failed error => simp [ho] at hnone

end Run

/-- Parsing an input never ends exactly if its run recurs. -/
theorem parseWithin_eq_none_iff {tables : Tables} {input : List Symbol} {run : Run}
    (hstart : Run.start tables input = .ok run) :
    (∀ allowance, parseWithin tables allowance input = none) ↔
      ∃ i j, run.Recurs tables i j := by
  rw [← Run.endless_iff, Run.endless_iff_answerWithin]
  simp only [parseWithin, hstart]

/-- On an input that ends with the end-marker, a run never ends exactly if it
recurs. -/
theorem never_ends_iff {tables : Tables} {input : List Symbol}
    (hinput : input.getLast? = some tables.endMarker) :
    ∃ run, Run.start tables input = .ok run ∧
      (run.Endless tables ↔ ∃ i j, run.Recurs tables i j) :=
  ⟨_, Run.start_eq_ok_iff.2 ⟨hinput, rfl⟩, Run.endless_iff⟩

/-- Tables that reduce `E -> ()` over and over, and push a state every time. -/
def emptyLoop : Tables :=
  .ofDeclarations
    [.production 1 ⟨"E", .symbols []⟩, .action 0 "$" (.reduce 1), .goto 0 "E" 0]

theorem never_ends_emptyLoop :
    ["$"].getLast? = some emptyLoop.endMarker ∧
      ∃ run, Run.start emptyLoop ["$"] = .ok run ∧ run.Endless emptyLoop := by
  have hinput : ["$"].getLast? = some emptyLoop.endMarker := by decide
  refine ⟨hinput, ?_⟩
  obtain ⟨run, hstart, h⟩ := never_ends_iff hinput
  refine ⟨run, hstart, h.2 ⟨0, 1, ?_⟩⟩
  obtain ⟨-, rfl⟩ := Run.start_eq_ok_iff.1 hstart
  exact
    { lt := by decide
      running := by decide
      position := rfl
      stack := .inr ⟨by decide, rfl⟩ }

end ShiftReduce
