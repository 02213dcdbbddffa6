import Mathlib.Data.Set.Finite.Lattice
import Mathlib.Data.Set.Finite.Lemmas
import Mathlib.Order.Interval.Finset.Basic

/-!
# Endless sequences of stacks

A sequence of stacks goes on forever, and each stack comes from the one before by
`Replaces`: some of the topmost elements are taken off, not all, and one is put
on.  Only finitely many elements are ever on top.

Such a sequence either comes back to a stack it had before, or grows on a stack
that it never goes below again, and comes to the same top element there
(`exists_recurrence`).  Which of the two it is depends on the depths of the
stacks.  If some depth comes again and again, the least such depth gives a stack
that comes back.  If no depth does, the stacks are left behind one after the
other, each at its last visit.

The top of a stack is the head of its list, so a lower part is a suffix.
-/

namespace ShiftReduce

variable {α : Type}

/-- The next stack has one element in the place of some of the topmost ones. -/
def Replaces (stack next : List α) : Prop :=
  ∃ count top, count < stack.length ∧ next = top :: stack.drop count

namespace Replaces

variable {stack next base : List α}

theorem length_pos (h : Replaces stack next) : 0 < stack.length := by
  obtain ⟨count, _, hlt, _⟩ := h
  exact Nat.zero_lt_of_lt hlt

/-- A lower part stays, below the top, if the next stack is deeper. -/
theorem suffix_tail (h : Replaces stack next) (hbase : base <:+ stack)
    (hlt : base.length < next.length) : base <:+ next.tail := by
  obtain ⟨count, top, -, rfl⟩ := h
  rw [List.length_cons] at hlt
  rw [List.tail_cons]
  exact List.suffix_of_suffix_length_le hbase (List.drop_suffix count stack)
    (Nat.le_of_lt_succ hlt)

end Replaces

section

variable {stack : Nat → List α}

/-- A lower part stays as long as all stacks are deeper. -/
theorem suffix_tail_of_deeper (hstep : ∀ k, Replaces (stack k) (stack (k + 1))) {base : List α}
    {i : Nat} (hbase : base <:+ stack i) (hdeep : ∀ k, i < k → base.length < (stack k).length)
    {j : Nat} (hij : i < j) : base <:+ (stack j).tail := by
  induction j, hij using Nat.le_induction with
  | base => exact (hstep i).suffix_tail hbase (hdeep (i + 1) (Nat.lt_succ_self i))
  | succ j hij ih =>
      have hstack : base <:+ stack j := ih.trans (List.tail_suffix _)
      exact (hstep j).suffix_tail hstack (hdeep (j + 1) (Nat.lt_succ_of_lt hij))

/-- If no smaller depth comes again and again, smaller depths stop coming. -/
theorem finite_shallower {depth : Nat}
    (h : ∀ d < depth, {k | (stack k).length = d}.Finite) :
    {k | (stack k).length < depth}.Finite := by
  refine ((Set.finite_lt_nat depth).biUnion h).subset ?_
  intro k hk
  exact Set.mem_biUnion (x := (stack k).length) hk rfl

/-- At the least depth that comes again and again a stack comes back. -/
theorem exists_return (hstep : ∀ k, Replaces (stack k) (stack (k + 1))) {tops : Set (Option α)}
    (htops : tops.Finite) (htop : ∀ k, (stack k).head? ∈ tops) {depth : Nat}
    (hdepth : {k | (stack k).length = depth}.Infinite)
    (hleast : ∀ d < depth, {k | (stack k).length = d}.Finite) :
    ∃ i j, i < j ∧ stack i = stack j := by
  obtain ⟨last, hlast⟩ := (finite_shallower hleast).bddAbove
  -- from here on no stack is less deep
  have hafter : ∀ k, last < k → depth ≤ (stack k).length := by
    intro k hk
    refine Nat.le_of_not_lt fun hlt => ?_
    exact absurd (hlast hlt) (Nat.not_le_of_lt hk)
  have hinfinite := hdepth.sdiff (Set.finite_le_nat last)
  obtain ⟨i, ⟨hi, hilast⟩, j, ⟨hj, -⟩, hij, heq⟩ :=
    hinfinite.exists_lt_map_eq_of_mapsTo (f := fun k => (stack k).head?)
      (fun k _ => htop k) htops
  have hi : (stack i).length = depth := hi
  have hj : (stack j).length = depth := hj
  have hpos : 0 < depth := hi ▸ (hstep i).length_pos
  have hilast : last < i := Nat.lt_of_not_le hilast
  have hbelow : (stack i).tail <:+ (stack j).tail := by
    refine suffix_tail_of_deeper hstep (List.tail_suffix _) ?_ hij
    intro k hk
    have := hafter k (Nat.lt_trans hilast hk)
    rw [List.length_tail, hi]
    omega
  have htail : (stack i).tail = (stack j).tail := by
    refine hbelow.eq_of_length ?_
    rw [List.length_tail, List.length_tail, hi, hj]
  obtain ⟨top, hm⟩ : ∃ top, top ∈ (stack i).head? :=
    ⟨_, List.head_mem_head? (List.ne_nil_of_length_pos (hi ▸ hpos))⟩
  refine ⟨i, j, hij, ?_⟩
  calc stack i = top :: (stack i).tail := List.eq_cons_of_mem_head? hm
    _ = top :: (stack j).tail := by rw [htail]
    _ = stack j := (List.eq_cons_of_mem_head? (heq ▸ hm)).symm

/-- The times after which all stacks are deeper. -/
def departures (stack : Nat → List α) : Set Nat :=
  {i | ∀ k, i < k → (stack i).length < (stack k).length}

/-- If no depth comes again and again, such times do. -/
theorem infinite_departures (hdepths : ∀ d, {k | (stack k).length = d}.Finite) :
    (departures stack).Infinite := by
  refine Set.infinite_of_forall_exists_gt fun a => ?_
  have hfinite : {k | (stack k).length < (stack (a + 1)).length + 1}.Finite :=
    finite_shallower fun d _ => hdepths d
  obtain ⟨i, hi, hmax⟩ := Set.exists_max_image _ id hfinite ⟨a + 1, Nat.lt_succ_self _⟩
  refine ⟨i, ?_, hmax (a + 1) (Nat.lt_succ_self _)⟩
  intro k hk
  refine Nat.lt_of_not_le fun hle => ?_
  exact absurd (hmax k (Nat.lt_of_le_of_lt hle hi)) (Nat.not_le_of_lt hk)

/-- If no depth comes again and again, the sequence leaves a stack behind for
good, and comes to the same top element over it. -/
theorem exists_growth (hstep : ∀ k, Replaces (stack k) (stack (k + 1))) {tops : Set (Option α)}
    (htops : tops.Finite) (htop : ∀ k, (stack k).head? ∈ tops)
    (hdepths : ∀ d, {k | (stack k).length = d}.Finite) :
    ∃ i j, i < j ∧ (stack j).head? = (stack i).head? ∧ ∀ k, i ≤ k → stack i <:+ stack k := by
  obtain ⟨i, hi, j, -, hij, heq⟩ :=
    (infinite_departures hdepths).exists_lt_map_eq_of_mapsTo (f := fun k => (stack k).head?)
      (fun k _ => htop k) htops
  refine ⟨i, j, hij, heq.symm, ?_⟩
  intro k hk
  rcases Nat.eq_or_lt_of_le hk with rfl | hlt
  · exact List.suffix_rfl
  · exact (suffix_tail_of_deeper hstep List.suffix_rfl hi hlt).trans (List.tail_suffix _)

/-- An endless sequence of stacks comes back to a stack, or comes to the same top
element again over a stack that it never goes below. -/
theorem exists_recurrence (hstep : ∀ k, Replaces (stack k) (stack (k + 1)))
    {tops : Set (Option α)} (htops : tops.Finite) (htop : ∀ k, (stack k).head? ∈ tops) :
    ∃ i j, i < j ∧ (stack i = stack j ∨
      ((∀ k, i ≤ k → stack i <:+ stack k) ∧ (stack j).head? = (stack i).head?)) := by
  classical
  by_cases h : ∃ depth, {k | (stack k).length = depth}.Infinite
  · have hleast : ∀ d < Nat.find h, {k | (stack k).length = d}.Finite := by
      intro d hd
      exact Set.not_infinite.1 (Nat.find_min h hd)
    obtain ⟨i, j, hij, heq⟩ := exists_return hstep htops htop (Nat.find_spec h) hleast
    exact ⟨i, j, hij, .inl heq⟩
  · have hdepths : ∀ d, {k | (stack k).length = d}.Finite := by
      intro d
      exact Set.not_infinite.1 fun hd => h ⟨d, hd⟩
    obtain ⟨i, j, hij, heq, hbelow⟩ := exists_growth hstep htops htop hdepths
    exact ⟨i, j, hij, .inr ⟨hbelow, heq⟩⟩

end

end ShiftReduce
