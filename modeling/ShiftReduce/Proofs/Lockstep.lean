import ShiftReduce.Proofs.Resuming

/-!
# Runs in lockstep

Two runs, each with its own tables, go in lockstep if every step of the first is a step
of the second with the same outcome, `move` taking the one run to the other.  It is
enough to look at the steps that the first takes before it has finished (`Run.lockstep`).

A run that *follows* another one has the same outcomes and the same record up to the end
of that one (`Run.Follows`), and comes to the same answer under every allowance.
-/

namespace ShiftReduce

namespace Run

variable {a b : Tables} {run other : Run} {count : Nat}

/-- If the steps of the first run can be taken by the second one, it takes them. -/
theorem lockstep (run : Run) (move : Run → Run)
    (hfinished : ∀ r, (move r).finished = r.finished)
    (hstep : ∀ k < count, (run.after a k).Step a (run.outcome a k) (run.after a (k + 1)) →
      (move (run.after a k)).Step b (run.outcome a k) (move (run.after a (k + 1)))) :
    (move run).after b count = move (run.after a count) ∧
      ∀ k < count, (move run).outcome b k = run.outcome a k := by
  induction count with
  | zero => exact ⟨rfl, fun k hk => absurd hk (Nat.not_lt_zero k)⟩
  | succ count ih =>
      obtain ⟨hafter, houtcome⟩ := ih fun k hk => hstep k (Nat.lt_succ_of_lt hk)
      have hnext : ((move run).after b count).step b =
          (run.outcome a count, move (run.after a (count + 1))) := by
        rw [hafter]
        rcases step_after_cases a count run with ⟨hf, hs⟩ | ⟨hf, ho, hsame⟩
        · exact (hstep count (Nat.lt_succ_self count) hs).step_eq ((hfinished _).trans hf)
        · rw [step_of_finished ((hfinished _).trans hf), ho, hsame]
      rw [step_after, Prod.mk.injEq] at hnext
      refine ⟨hnext.2, fun k hk => ?_⟩
      rcases Nat.lt_succ_iff_lt_or_eq.1 hk with hk | rfl
      · exact houtcome k hk
      · exact hnext.1

/-- Up to the end of a run the other one has the same outcomes and the same record. -/
def Follows (b : Tables) (other : Run) (a : Tables) (run : Run) : Prop :=
  ∀ count, (∀ k < count, run.outcome a k = .running) →
    other.outcome b count = run.outcome a count ∧
      (other.after b (count + 1)).trace = (run.after a (count + 1)).trace

namespace Follows

variable (h : other.Follows b a run)
include h

theorem running (hrun : ∀ k < count, run.outcome a k = .running) :
    ∀ k < count, other.outcome b k = .running := by
  intro k hk
  rw [(h k fun j hj => hrun j (Nat.lt_trans hj hk)).1]
  exact hrun k hk

theorem answerWithin_eq (allowance : Nat) :
    other.answerWithin b allowance = run.answerWithin a allowance := by
  by_cases hrun : ∀ k < allowance, run.outcome a k = .running
  · simp only [answerWithin, advance_eq_of_running hrun, advance_eq_of_running (h.running hrun)]
  · obtain ⟨last, hlast, hbefore, hend⟩ := exists_end hrun
    obtain ⟨ho, ht⟩ := h last hbefore
    obtain ⟨spare, hadvance⟩ := advance_of_end hbefore hend hlast
    obtain ⟨spare', hadvance'⟩ :=
      advance_of_end (h.running hbefore) (by rw [ho]; exact hend) hlast
    simp only [answerWithin, hadvance, hadvance', ho, ht]

end Follows

end Run

/-- Whether a run starts depends on the end-marker only. -/
theorem Run.start_congr {a b : Tables} (h : a.endMarker = b.endMarker) (input : List Symbol) :
    Run.start a input = Run.start b input := by
  rw [Run.start, Run.start, h]

/-- What a run comes to that follows the run on an input. -/
theorem parseWithin_eq_of_follows {a b : Tables} {input other : List Symbol} {run follower : Run}
    (hrun : Run.start a input = .ok run) (hfollower : Run.start b other = .ok follower)
    (h : follower.Follows b a run) (allowance : Nat) :
    parseWithin b allowance other = parseWithin a allowance input := by
  rw [parseWithin_eq_answerWithin hrun, parseWithin_eq_answerWithin hfollower,
    h.answerWithin_eq]

end ShiftReduce
