/-
VirtualMarket.Proofs.Curve.Guards — the reserves that the invariant solver takes.

Before it starts, the solver looks at the constants of the curve, at the larger
reserve and at the ratio of the two, in this order; the search that follows knows
nothing of the reserves but which is the larger and which the smaller.  That an
invariant came out at all therefore tells that the reserves are balanced: neither
of them is a NaN, infinite, negative or zero, and the smaller is no less than a
ten-thousandth of the larger.
-/
import VirtualMarket.Proofs.Curve.Invariant

namespace VirtualMarket

open Double

namespace Reserves

/-- The reserve that the solver puts first. -/
def larger (x : Reserves) : Float :=
  if x.quote < x.base then x.base else x.quote

/-- The reserve that the solver puts second. -/
def smaller (x : Reserves) : Float :=
  if x.quote < x.base then x.quote else x.base

/-- Scaled reserves within the guards of the solver. -/
structure Balanced (x : Reserves) : Prop where
  quote : Positive x.quote
  base : Positive x.base
  low : 1e-9 ≤ x.larger
  high : x.larger ≤ 1e15
  ratio : 1e-4 ≤ x.smaller / x.larger

theorem larger_smaller (x : Reserves) :
    (if x.quote < x.base then (x.base, x.quote) else (x.quote, x.base)) =
      (x.larger, x.smaller) := by
  unfold larger smaller
  split <;> rfl

end Reserves

namespace Shape

variable {s : Shape} {x : Reserves} {fault : Fault}

/-! ## Refusals -/

/-- What the solver refuses before it starts, each with its fault.  The constants
go before the larger reserve, and this before the ratio. -/
inductive Refuses (s : Shape) (x : Reserves) : Fault → Prop where
  | amplification (out : Band.amplification.contains s.amplification = false) :
      Refuses s x (.unsafeParameter .amplification s.amplification)
  | gamma (amplification : Band.amplification.contains s.amplification = true)
      (out : Band.gamma.contains s.gamma = false) :
      Refuses s x (.unsafeParameter .gamma s.gamma)
  | larger (constants : s.guarded = .ok ())
      (out : Band.largerReserve.contains x.larger = false) :
      Refuses s x (.unsafeParameter .largerReserve x.larger)
  | smaller (constants : s.guarded = .ok ())
      (larger : Band.largerReserve.contains x.larger = true)
      (out : ¬ 1e-4 ≤ x.smaller / x.larger) :
      Refuses s x (.unsafeParameter .smallerReserve x.smaller)

/-- The guards of the solver. -/
def guards (s : Shape) (x : Reserves) : Outcome Unit := do
  s.guarded
  guardBand .largerReserve .largerReserve x.larger
  if 1e-4 ≤ x.smaller / x.larger then .ok ()
  else .error (.unsafeParameter .smallerReserve x.smaller)

/-- The guards pass for constants in their bands, a larger reserve in its own, and a
smaller one that is not too small beside it. -/
theorem guards_eq_ok : s.guards x = .ok () ↔
    s.guarded = .ok () ∧ Band.largerReserve.contains x.larger = true ∧
      1e-4 ≤ x.smaller / x.larger := by
  rw [guards, Outcome.test_bind_eq_ok, Outcome.test_bind_eq_ok, guardBand_eq_ok]
  constructor
  · rintro ⟨hs, hl, h⟩
    split at h
    · rename_i hratio
      exact ⟨hs, hl, hratio⟩
    · cases h
  · rintro ⟨hs, hl, hratio⟩
    exact ⟨hs, hl, if_pos hratio⟩

theorem guarded_eq_error : s.guarded = .error fault ↔
    (Band.amplification.contains s.amplification = false ∧
      .unsafeParameter .amplification s.amplification = fault) ∨
    (Band.amplification.contains s.amplification = true ∧
      Band.gamma.contains s.gamma = false ∧ .unsafeParameter .gamma s.gamma = fault) := by
  rw [guarded, guardBand_bind_eq_error, guardBand_eq_error]

/-- The guards fail for what the solver refuses, and for nothing else. -/
theorem guards_eq_error : s.guards x = .error fault ↔ s.Refuses x fault := by
  rw [guards, Outcome.bind_eq_error, guarded_eq_error]
  simp only [guardBand_bind_eq_error]
  constructor
  · rintro ((⟨ha, rfl⟩ | ⟨ha, hg, rfl⟩) | ⟨_, hs, ⟨hl, rfl⟩ | ⟨hl, h⟩⟩)
    · exact .amplification ha
    · exact .gamma ha hg
    · exact .larger hs hl
    · split at h
      · cases h
      · rename_i hratio
        cases h
        exact .smaller hs hl hratio
  · rintro (ha | ⟨ha, hg⟩ | ⟨hs, hl⟩ | ⟨hs, hl, hratio⟩)
    · exact .inl (.inl ⟨ha, rfl⟩)
    · exact .inl (.inr ⟨ha, hg, rfl⟩)
    · exact .inr ⟨(), hs, .inl ⟨hl, rfl⟩⟩
    · exact .inr ⟨(), hs, .inr ⟨hl, if_neg hratio⟩⟩

/-- The solver is its guards, and then a search on the larger and the smaller
reserve. -/
theorem invariantWithin_eq (s : Shape) (x : Reserves) (budget : Nat) :
    s.invariantWithin x budget = (do
      s.guards x
      Newton.run .invariant (s.invariantStep x.larger x.smaller) budget
        (2 * geometricMean x.larger x.smaller)) := by
  rw [invariantWithin, x.larger_smaller, guards]
  simp only [bind_assoc]
  congr 1
  funext _
  congr 1
  funext _
  split <;> rfl

/-! ## Balanced reserves -/

theorem balanced_of_invariant {d : Float} (h : s.invariant x = .ok d) : x.Balanced := by
  obtain ⟨hq, hb, -⟩ := positive_of_invariant h
  rw [invariant, invariantWithin_eq, Outcome.test_bind_eq_ok, guards_eq_ok] at h
  obtain ⟨⟨-, hlarger, hratio⟩, -⟩ := h
  obtain ⟨hlow, hhigh⟩ := Band.contains_iff.mp hlarger
  exact ⟨hq, hb, hlow, hhigh, hratio⟩

end Shape

end VirtualMarket
