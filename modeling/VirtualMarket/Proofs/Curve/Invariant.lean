/-
VirtualMarket.Proofs.Curve.Invariant — what a solved invariant tells.

The solver checks the larger reserve before it starts and both shares of the
invariant when it ends.  Whatever happens in between, an invariant that comes
out is therefore positive and finite, and so are the reserves it was solved
for; it is also large enough to be halved.
-/
import VirtualMarket.Proofs.Curve.Faults
import VirtualMarket.Proofs.Double.Division

namespace VirtualMarket

open Double

/-! ## The end of a search -/

/-- A search that succeeds ends with a step that gave the answer. -/
theorem Newton.step_of_run {solver : Solver} {step : Float → Step} {budget : Nat}
    {start answer : Float} (h : run solver step budget start = .ok answer) :
    ∃ estimate, step estimate = .done (.ok answer) := by
  have hc := run_cases solver step budget start
  rw [h] at hc
  rcases hc with hc | hc
  · cases hc
  · exact hc

/-- What lies in a band with positive ends is positive and finite. -/
theorem Band.positive_of_contains {b : Band} {x : Float} (hl : Positive b.low)
    (hh : Positive b.high) (h : b.contains x = true) : Positive x := by
  obtain ⟨hlow, hhigh⟩ := Band.contains_iff.mp h
  exact hl.of_between hh hlow hhigh

namespace Shape

/-- What the solver has checked when it gives an invariant. -/
structure Checked (large small d : Float) : Prop where
  larger : Band.largerReserve.contains large = true
  largerShare : Band.share.contains (large / d) = true
  smallerShare : Band.share.contains (small / d) = true

theorem acceptInvariant_eq_ok {large small e d : Float} :
    acceptInvariant large small e = .ok d ↔
      e = d ∧ Band.share.contains (large / d) = true ∧ Band.share.contains (small / d) = true := by
  unfold acceptInvariant
  constructor
  · intro h
    split at h
    · cases h
    · split at h
      · cases h
      · cases h
        simp_all
  · rintro ⟨rfl, hlarge, hsmall⟩
    simp [hlarge, hsmall]

theorem checked_of_invariant {s : Shape} {x : Reserves} {d : Float} (h : s.invariant x = .ok d) :
    Checked x.base x.quote d ∨ Checked x.quote x.base d := by
  rw [invariant, invariantWithin, Outcome.bind_eq_ok] at h
  obtain ⟨-, -, h⟩ := h
  generalize hp : (if x.quote < x.base then (x.base, x.quote) else (x.quote, x.base)) = pair at h
  obtain ⟨large, small⟩ := pair
  obtain ⟨_, hl, h⟩ := Outcome.bind_eq_ok.mp h
  have hc : Checked large small d := by
    split at h
    · obtain ⟨estimate, hs⟩ := Newton.step_of_run h
      obtain ⟨e, he⟩ := eq_of_invariantStep_done hs
      obtain ⟨-, h₁, h₂⟩ := acceptInvariant_eq_ok.mp he.symm
      exact ⟨guardBand_eq_ok.mp hl, h₁, h₂⟩
    · cases h
  split at hp <;> cases hp
  · exact .inl hc
  · exact .inr hc

variable {large small d : Float}

theorem positive_of_largerReserve (h : Band.largerReserve.contains large = true) :
    Positive large :=
  Band.positive_of_contains ⟨_, _, _, rfl⟩ ⟨_, _, _, rfl⟩ h

theorem positive_of_share {x : Float} (h : Band.share.contains x = true) : Positive x :=
  Band.positive_of_contains ⟨_, _, _, rfl⟩ ⟨_, _, _, rfl⟩ h

theorem Checked.positive (h : Checked large small d) :
    Positive large ∧ Positive small ∧ Positive d := by
  have hl := positive_of_largerReserve h.larger
  have hd := (positive_of_share h.largerShare).of_div_left hl.unsigned
  exact ⟨hl, (positive_of_share h.smallerShare).of_div_right hd.unsigned, hd⟩

/-- An invariant is not so small that it cannot be halved: the larger reserve
would be more than a hundred times as large. -/
theorem Checked.half_positive (h : Checked large small d) : Positive (d / 2) := by
  obtain ⟨hl, -, hd⟩ := h.positive
  have h128 : Positive 128 := ⟨_, _, _, rfl⟩
  have hle : real 1e-9 ≤ real large :=
    (Positive.le_iff ⟨_, _, _, rfl⟩ hl).mp (Band.contains_iff.mp h.larger).1
  have hnano : real 1e-9 = dyadic 4835703278458517 (-82) :=
    real_of_view (h := by omega) rfl
  have hreal : real 128 = 128 := by
    rw [real_of_view (m := 2 ^ 52) (e := -45) (h := by omega) rfl, dyadic]
    norm_num
  refine hd.half (not_lt.mp fun hlt => ?_)
  -- the quotient would be far above its band, and rounding would leave it there
  have hbig : (128 : Float) ≤ large / d := by
    refine h128.le_div hl hd ?_
    rw [hreal, le_div_iff₀ hd.real_pos]
    calc 128 * real d ≤ 128 * 2 ^ (-1073 : ℤ) := by linarith
      _ = 2 ^ (-1066 : ℤ) := by
          have h7 : (2 : ℝ) ^ (7 : ℤ) = 128 := by norm_num
          rw [show (-1066 : ℤ) = 7 + -1073 from rfl, zpow_add₀ two_ne_zero, h7]
      _ ≤ 2 ^ (-82 : ℤ) := zpow_le_zpow_right₀ (by norm_num) (by norm_num)
      _ ≤ real 1e-9 := by
          rw [hnano, dyadic]
          exact le_mul_of_one_le_left (by positivity) (by norm_num)
      _ ≤ real large := hle
  have hsmall := (Band.contains_iff.mp h.largerShare).2
  exact absurd (Double.le_trans hbig hsmall) (by decide)

/-- A solved invariant and the reserves it was solved for are positive and
finite. -/
theorem positive_of_invariant {s : Shape} {x : Reserves} (h : s.invariant x = .ok d) :
    Positive x.quote ∧ Positive x.base ∧ Positive d ∧ Positive (d / 2) := by
  rcases checked_of_invariant h with hc | hc
  · obtain ⟨hb, hq, hd⟩ := hc.positive
    exact ⟨hq, hb, hd, hc.half_positive⟩
  · obtain ⟨hq, hb, hd⟩ := hc.positive
    exact ⟨hq, hb, hd, hc.half_positive⟩

end Shape

/-- An invariant handed in from outside is positive, too, within its band. -/
theorem positive_of_invariantBand {d : Float} (h : Band.invariant.contains d = true) :
    Positive d ∧ Positive (d / 2) := by
  obtain ⟨hl, hh⟩ := Band.contains_iff.mp h
  have hlow : Positive 0.1 := ⟨_, _, _, rfl⟩
  have hd : Positive d := hlow.of_between ⟨_, _, _, rfl⟩ hl hh
  refine ⟨hd, hd.half ?_⟩
  have htenth : real 0.1 = dyadic 7205759403792794 (-56) := real_of_view (h := by omega) rfl
  calc (2 : ℝ) ^ (-1073 : ℤ) ≤ 2 ^ (-56 : ℤ) := zpow_le_zpow_right₀ (by norm_num) (by norm_num)
    _ ≤ real 0.1 := by
        rw [htenth, dyadic]
        exact le_mul_of_one_le_left (by positivity) (by norm_num)
    _ ≤ real d := (hlow.le_iff hd).mp hl

end VirtualMarket
