/-
VirtualMarket.Proofs.Curve.Faults — how the solvers fail.

A solver refuses an argument, refuses what it has found, or uses up its steps.
It has no other faults, whatever the arguments are, so a fault of another kind
that comes out of an operation was raised by the operation itself.
-/
import VirtualMarket.Curve.Invariant
import VirtualMarket.Curve.Reserve
import VirtualMarket.Proofs.Outcome

namespace VirtualMarket

open Outcome

/-- The faults that a solver raises. -/
def Fault.OfSolver : Fault → Prop
  | .unsafeParameter .. => True
  | .unsafeIntermediate .. => True
  | .didNotConverge _ => True
  | _ => False

/-- The faults that a solver raises once the constants of the curve have
passed. -/
def Fault.OfSearch : Fault → Prop
  | .unsafeParameter quantity _ => quantity ≠ .amplification ∧ quantity ≠ .gamma
  | .unsafeIntermediate .. => True
  | .didNotConverge _ => True
  | _ => False

theorem Fault.OfSearch.ofSolver {fault : Fault} (h : fault.OfSearch) : fault.OfSolver := by
  cases fault with
  | unsafeParameter | unsafeIntermediate | didNotConverge => trivial
  | _ => cases h

theorem faultsIn_guardBand {P : Fault → Prop} {q : Quantity} {x : Float}
    (h : P (.unsafeParameter q x)) (b : Band) : FaultsIn P (guardBand b q x) := by
  unfold guardBand
  split
  · exact .ok ()
  · exact .error h

/-! ## The end of a search -/

/-- A search ends for want of steps, or with what one of its steps gave. -/
theorem Newton.run_cases (solver : Solver) (step : Float → Step) (budget : Nat) (start : Float) :
    run solver step budget start = .error (.didNotConverge solver) ∨
      ∃ estimate, step estimate = .done (run solver step budget start) := by
  induction budget generalizing start with
  | zero => exact .inl rfl
  | succ budget ih =>
    rw [run]
    split
    · exact ih _
    · rename_i result he
      exact .inr ⟨start, he⟩

theorem Newton.faultsIn_run {P : Fault → Prop} {solver : Solver} {step : Float → Step}
    (hn : P (.didNotConverge solver))
    (hs : ∀ estimate result, step estimate = .done result → FaultsIn P result)
    (budget : Nat) (start : Float) : FaultsIn P (run solver step budget start) := by
  rcases run_cases solver step budget start with h | ⟨estimate, h⟩
  · rw [h]
    exact .error hn
  · exact hs estimate _ h

namespace Shape

variable {P : Fault → Prop} {s : Shape}

theorem faultsIn_guarded (s : Shape) : FaultsIn Fault.OfSolver s.guarded :=
  .bind (faultsIn_guardBand trivial _) fun _ => faultsIn_guardBand trivial _

/-! ## The invariant -/

theorem faultsIn_acceptInvariant (large small d : Float) :
    FaultsIn Fault.OfSearch (acceptInvariant large small d) := by
  unfold acceptInvariant
  split
  · exact .error trivial
  · split
    · exact .error trivial
    · exact .ok d

/-- A step that ends the search accepts or refuses an estimate. -/
theorem eq_of_invariantStep_done {s : Shape} {large small d : Float} {result : Outcome Float}
    (h : s.invariantStep large small d = .done result) :
    ∃ e, result = acceptInvariant large small e := by
  unfold invariantStep at h
  extract_lets next at h
  split at h
  · exact ⟨next, (Newton.Step.done.inj h).symm⟩
  · cases h

/-- The faults of an invariant are those of the constants and of the search. -/
theorem faultsIn_invariant_of (hs : FaultsIn P s.guarded) (hP : ∀ fault, fault.OfSearch → P fault)
    (x : Reserves) : FaultsIn P (s.invariant x) := by
  refine .bind hs fun _ => .mono hP ?_
  refine .bind (faultsIn_guardBand ⟨nofun, nofun⟩ _) fun _ => ?_
  split
  · refine Newton.faultsIn_run trivial (fun d result h => ?_) _ _
    obtain ⟨e, rfl⟩ := eq_of_invariantStep_done h
    exact faultsIn_acceptInvariant _ _ e
  · exact .error ⟨nofun, nofun⟩

theorem faultsIn_invariant (s : Shape) (x : Reserves) :
    FaultsIn Fault.OfSolver (s.invariant x) :=
  faultsIn_invariant_of s.faultsIn_guarded (fun _ => Fault.OfSearch.ofSolver) x

/-! ## The reserve -/

theorem faultsIn_acceptReserve (d y : Float) : FaultsIn Fault.OfSearch (acceptReserve d y) := by
  unfold acceptReserve
  split
  · exact .ok y
  · exact .error trivial

/-- A step that ends the search accepts or refuses an estimate. -/
theorem eq_of_reserveStep_done {s : Shape} {known d y : Float} {result : Outcome Float}
    (h : s.reserveStep known d y = .done result) : ∃ e, result = acceptReserve d e := by
  unfold reserveStep at h
  extract_lets k0 sum g1k0 mul1 mul2 rise fall at h
  split at h
  · cases h
  · split at h
    · exact ⟨_, (Newton.Step.done.inj h).symm⟩
    · cases h

/-- The faults of a reserve are those of the constants and of the search. -/
theorem faultsIn_reserve_of (hs : FaultsIn P s.guarded) (hP : ∀ fault, fault.OfSearch → P fault)
    (x : Reserves) (d : Float) (asset : Asset) : FaultsIn P (s.reserve x d asset) := by
  refine .bind hs fun _ => .mono hP ?_
  refine .bind (faultsIn_guardBand ⟨nofun, nofun⟩ _) fun _ =>
    .bind (faultsIn_guardBand ⟨nofun, nofun⟩ _) fun _ => ?_
  refine Newton.faultsIn_run trivial (fun y result h => ?_) _ _
  obtain ⟨e, rfl⟩ := eq_of_reserveStep_done h
  exact faultsIn_acceptReserve d e

theorem faultsIn_reserve (s : Shape) (x : Reserves) (d : Float) (asset : Asset) :
    FaultsIn Fault.OfSolver (s.reserve x d asset) :=
  faultsIn_reserve_of s.faultsIn_guarded (fun _ => Fault.OfSearch.ofSolver) x d asset

end Shape

end VirtualMarket
