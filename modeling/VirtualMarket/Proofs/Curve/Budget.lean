/-
VirtualMarket.Proofs.Curve.Budget — the budget of a search decides whether an answer
comes, not which.

A search is one sequence of estimates, and the budget is where it is cut off.  An
answer, whether it is a value or a refusal of one, is the end of the sequence, so it
stands in every longer piece of it.  What the guards of the solver refuse is refused
before the first estimate, whatever the budget.
-/
import VirtualMarket.Proofs.Curve.Guards

namespace VirtualMarket

variable {n m : Nat}

/-- A search that has ended ends alike within every larger budget. -/
theorem Newton.run_of_le {solver : Solver} {step : Float → Step} {start : Float} (h : n ≤ m)
    (hn : run solver step n start ≠ .error (.didNotConverge solver)) :
    run solver step m start = run solver step n start := by
  induction n generalizing m start with
  | zero => exact absurd rfl hn
  | succ n ih =>
    obtain ⟨m, rfl⟩ : ∃ k, m = k + 1 := ⟨m - 1, by omega⟩
    rw [run] at hn
    rw [run, run]
    cases hs : step start with
    | again next =>
      rw [hs] at hn
      exact ih (Nat.le_of_succ_le_succ h) hn
    | done result => rfl

namespace Shape

variable {s : Shape} {x : Reserves} {fault : Fault}

/-- What the solver has found, it finds within every larger budget. -/
theorem invariantWithin_of_le (h : n ≤ m)
    (hn : s.invariantWithin x n ≠ .error (.didNotConverge .invariant)) :
    s.invariantWithin x m = s.invariantWithin x n := by
  rw [invariantWithin_eq] at hn
  rw [invariantWithin_eq, invariantWithin_eq]
  cases hg : s.guards x with
  | error fault => rfl
  | ok _ =>
    rw [hg] at hn
    exact Newton.run_of_le h hn

/-- What the solver refuses, it refuses within every budget. -/
theorem Refuses.invariantWithin_eq (h : s.Refuses x fault) (budget : Nat) :
    s.invariantWithin x budget = .error fault := by
  rw [Shape.invariantWithin_eq, guards_eq_error.mpr h]
  rfl

/-- Without steps the solver comes to the end of its guards and no further. -/
theorem invariantWithin_zero_eq_error : s.invariantWithin x 0 = .error fault ↔
    s.Refuses x fault ∨ ((∀ other, ¬ s.Refuses x other) ∧ fault = .didNotConverge .invariant) := by
  cases hg : s.guards x with
  | error first =>
    have hfirst : s.Refuses x first := guards_eq_error.mp hg
    rw [hfirst.invariantWithin_eq, ← guards_eq_error, hg, Except.error.injEq, Except.error.injEq]
    exact ⟨.inl, fun h => h.resolve_right fun h => h.1 first hfirst⟩
  | ok _ =>
    have hnone (other : Fault) : ¬ s.Refuses x other := by
      rw [← guards_eq_error, hg]
      exact nofun
    have hend : s.invariantWithin x 0 = .error (.didNotConverge .invariant) := by
      rw [invariantWithin_eq, hg]
      rfl
    rw [hend, Except.error.injEq, eq_comm]
    exact ⟨fun h => .inr ⟨hnone, h⟩, fun h => (h.resolve_left (hnone fault)).2⟩

/-- A larger budget of steps changes no answer: what the solver has found within a
budget, a value or any fault but that its steps are used up, it finds within every
larger one, and steps that are too many for the larger are too many for the smaller.
With no steps at all its fault is that of its guards, or that there are no steps. -/
theorem budget_keeps_answers (s : Shape) (x : Reserves) :
    (∀ n m, n ≤ m → s.invariantWithin x n ≠ .error (.didNotConverge .invariant) →
      s.invariantWithin x m = s.invariantWithin x n) ∧
    (∀ n m, n ≤ m → s.invariantWithin x m = .error (.didNotConverge .invariant) →
      s.invariantWithin x n = .error (.didNotConverge .invariant)) ∧
    ∀ fault, s.invariantWithin x 0 = .error fault ↔
      s.Refuses x fault ∨
        ((∀ other, ¬ s.Refuses x other) ∧ fault = .didNotConverge .invariant) := by
  refine ⟨fun n m => invariantWithin_of_le, fun n m h hm => ?_,
    fun fault => invariantWithin_zero_eq_error⟩
  by_contra hn
  exact hn ((invariantWithin_of_le h hn).symm.trans hm)

/-- Reserves that differ by a thousandth take three steps; reserves that are too far
apart are refused before the first. -/
theorem budget_keeps_answers_near :
    let s : Shape := {}
    let x : Reserves := ⟨1000, 1001⟩
    let y : Reserves := ⟨1000000, 10⟩
    s.invariantWithin x 1 = .error (.didNotConverge .invariant) ∧
      (s.invariantWithin x 3).isOk = true ∧
      s.invariantWithin x Newton.stepLimit = s.invariantWithin x 3 ∧
      s.invariantWithin y 0 = .error (.unsafeParameter .smallerReserve y.smaller) := by
  intro s x y
  obtain ⟨hlarger, hsmaller, -⟩ := budget_keeps_answers s x
  obtain ⟨-, -, hzero⟩ := budget_keeps_answers s y
  have h2 : s.invariantWithin x 2 = .error (.didNotConverge .invariant) := by
    have h : (match s.invariantWithin x 2 with
        | .error (.didNotConverge .invariant) => true
        | _ => false) = true := by decide +kernel
    split at h
    · assumption
    · cases h
  have h3 : (s.invariantWithin x 3).isOk = true := by decide +kernel
  have hfound : s.invariantWithin x 3 ≠ .error (.didNotConverge .invariant) := by
    intro h
    rw [h] at h3
    cases h3
  obtain ⟨_, hconstants⟩ := Outcome.isOk_iff.mp (by decide +kernel : s.guarded.isOk = true)
  exact ⟨hsmaller 1 2 (by decide) h2, h3, hlarger 3 _ (by decide) hfound,
    (hzero _).mpr (.inl (.smaller hconstants (by decide +kernel) (by decide +kernel)))⟩

end Shape

end VirtualMarket
