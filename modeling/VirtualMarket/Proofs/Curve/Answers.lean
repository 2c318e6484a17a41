/-
VirtualMarket.Proofs.Curve.Answers — what the solvers return lies inside its bands.

The estimates of a search are not looked after.  A slope may vanish, a difference may
cancel, and an estimate may become a NaN, infinite, zero or negative on the way.  Nothing
is needed about the way, though: a search ends with a quotient that has to lie in a band,
and a band has positive ends.  A quotient inside it is positive and finite, and with one
of its terms so is the other.  For the invariant the known term is a reserve, which was
tested before the search; for a reserve it is the invariant.

`answers_stay_in_bands`: an invariant or a reserve comes out exactly if Newton's method
settles on it within its steps, and it lies inside its bands with everything that it was
solved from.  All that comes out is therefore positive and finite, and the bands are all
that is asked of it.
-/
import VirtualMarket.Proofs.Curve.Guards

namespace VirtualMarket

open Double

/-! ## Searches that settle -/

namespace Newton

variable {solver : Solver} {step : Float → Step} {accept : Float → Outcome Float}
  {budget : Nat} {start answer : Float}

/-- From one estimate a search comes to another after a number of steps, none of which
ends it. -/
inductive Comes (step : Float → Step) : Nat → Float → Float → Prop
  | here (estimate : Float) : Comes step 0 estimate estimate
  | again {n : Nat} {estimate next last : Float} (moves : step estimate = .again next)
      (rest : Comes step n next last) : Comes step (n + 1) estimate last

/-- Within a budget of steps a search settles on an answer, and leaves it to a test. -/
def SettlesOn (step : Float → Step) (accept : Float → Outcome Float) (budget : Nat)
    (start answer : Float) : Prop :=
  ∃ n < budget, ∃ last, Comes step n start last ∧ step last = .done (accept answer)

/-- A search gives an answer if, within its budget, it comes to a step that does. -/
theorem run_eq_ok : run solver step budget start = .ok answer ↔
    ∃ n < budget, ∃ last, Comes step n start last ∧ step last = .done (.ok answer) := by
  induction budget generalizing start with
  | zero =>
    refine iff_of_false nofun ?_
    rintro ⟨n, hn, -⟩
    exact Nat.not_lt_zero n hn
  | succ budget ih =>
    rw [run]
    cases hs : step start with
    | done result =>
      -- nothing comes after the first step
      constructor
      · rintro rfl
        exact ⟨0, Nat.succ_pos budget, start, .here start, hs⟩
      · rintro ⟨n, -, last, hcomes, hdone⟩
        cases hcomes with
        | here => exact Step.done.inj (hs.symm.trans hdone)
        | again moves => cases hs.symm.trans moves
    | again next =>
      -- what comes after it is a search with one step less
      refine ih.trans ?_
      constructor
      · rintro ⟨n, hn, last, hcomes, hdone⟩
        exact ⟨n + 1, Nat.succ_lt_succ hn, last, .again hs hcomes, hdone⟩
      · rintro ⟨n, hn, last, hcomes, hdone⟩
        cases hcomes with
        | here => cases hs.symm.trans hdone
        | again moves rest =>
          cases hs.symm.trans moves
          exact ⟨_, Nat.lt_of_succ_lt_succ hn, last, rest, hdone⟩

/-- If every step that ends the search leaves what it has found to one test, then the
search gives what it settles on and the test lets pass. -/
theorem run_eq_ok_iff_settlesOn
    (hstep : ∀ e result, step e = .done result → ∃ next, result = accept next)
    (haccept : ∀ e a, accept e = .ok a → e = a) :
    run solver step budget start = .ok answer ↔
      accept answer = .ok answer ∧ SettlesOn step accept budget start answer := by
  rw [run_eq_ok]
  constructor
  · rintro ⟨n, hn, last, hcomes, hdone⟩
    obtain ⟨next, hnext⟩ := hstep last _ hdone
    obtain rfl := haccept next answer hnext.symm
    exact ⟨hnext.symm, n, hn, last, hcomes, by rwa [← hnext]⟩
  · rintro ⟨hanswer, n, hn, last, hcomes, hdone⟩
    exact ⟨n, hn, last, hcomes, by rwa [← hanswer]⟩

end Newton

/-! ## Two reserves in order -/

namespace Reserves

variable {x : Reserves}

/-- The solver puts the maximum first and the minimum second. -/
theorem larger_eq_max_and_smaller_eq_min (h : Positive x.quote) :
    x.larger = max x.quote x.base ∧ x.smaller = min x.quote x.base := by
  change x.larger = (if x.quote ≤ x.base then x.base else x.quote) ∧
    x.smaller = if x.quote ≤ x.base then x.quote else x.base
  unfold larger smaller
  by_cases hlt : x.quote < x.base
  · simp [hlt, Double.le_of_lt hlt]
  · by_cases hle : x.quote ≤ x.base
    · have heq := (Double.le_iff_beq_or_lt.mp hle).resolve_right hlt
      simp [h.eq_of_beq heq]
    · simp [hlt, hle]

/-- A test of both reserves does not depend on which of them is the larger. -/
theorem larger_and_smaller_iff {P : Float → Prop} :
    P x.larger ∧ P x.smaller ↔ P x.quote ∧ P x.base := by
  unfold larger smaller
  split
  · exact and_comm
  · rfl

end Reserves

namespace Shape

variable {s : Shape} {x : Reserves} {asset : Asset} {index : Nat} {known d y : Float}

/-- Constants of a curve that the solvers work with. -/
structure InBands (s : Shape) : Prop where
  amplification : 4000 ≤ s.amplification ∧ s.amplification ≤ 4000000000
  gamma : 1e-8 ≤ s.gamma ∧ s.gamma ≤ 2e-2

theorem guarded_iff_inBands : s.guarded = .ok () ↔ s.InBands := by
  simp only [guarded_eq_ok, Band.contains_iff, Band.amplification, Band.gamma]
  constructor
  · rintro ⟨ha, hg⟩
    exact ⟨ha, hg⟩
  · intro h
    exact ⟨h.amplification, h.gamma⟩

/-! ## The invariant -/

/-- Two reserves and an invariant of them inside the safety bands. -/
structure SafeInvariant (s : Shape) (x : Reserves) (d : Float) : Prop where
  constants : s.InBands
  quote : Positive x.quote
  base : Positive x.base
  larger : 1e-9 ≤ max x.quote x.base ∧ max x.quote x.base ≤ 1e15
  ratio : 1e-4 ≤ min x.quote x.base / max x.quote x.base
  invariant : Positive d
  quoteShare : 1e-2 ≤ x.quote / d ∧ x.quote / d ≤ 1e2
  baseShare : 1e-2 ≤ x.base / d ∧ x.base / d ≤ 1e2

/-- Newton's method for the invariant settles on `d`. -/
def SettlesOnInvariant (s : Shape) (x : Reserves) (d : Float) : Prop :=
  Newton.SettlesOn (s.invariantStep x.larger x.smaller) (acceptInvariant x.larger x.smaller)
    Newton.stepLimit (2 * geometricMean x.larger x.smaller) d

/-- The search gives what it settles on if both reserves are sane shares of it. -/
theorem run_invariantStep_eq_ok {large small start : Float} {budget : Nat} :
    Newton.run .invariant (s.invariantStep large small) budget start = .ok d ↔
      acceptInvariant large small d = .ok d ∧
        Newton.SettlesOn (s.invariantStep large small) (acceptInvariant large small) budget
          start d :=
  Newton.run_eq_ok_iff_settlesOn (fun _ _ h => eq_of_invariantStep_done h)
    (fun _ _ h => (acceptInvariant_eq_ok.mp h).1)

theorem invariant_eq_ok : s.invariant x = .ok d ↔
    s.guards x = .ok () ∧
      (Band.share.contains (x.quote / d) = true ∧ Band.share.contains (x.base / d) = true) ∧
        s.SettlesOnInvariant x d := by
  have hshares : acceptInvariant x.larger x.smaller d = .ok d ↔
      Band.share.contains (x.quote / d) = true ∧ Band.share.contains (x.base / d) = true := by
    rw [acceptInvariant_eq_ok, and_iff_right rfl]
    exact Reserves.larger_and_smaller_iff (P := fun r => Band.share.contains (r / d) = true)
  rw [invariant, invariantWithin_eq, Outcome.test_bind_eq_ok, run_invariantStep_eq_ok, hshares,
    SettlesOnInvariant]

/-- The guards of the solver and its test of both shares, for numbers that are positive
and finite, say that all lies inside its band. -/
theorem safeInvariant_iff (hquote : Positive x.quote) (hbase : Positive x.base)
    (hd : Positive d) : s.SafeInvariant x d ↔
      s.guards x = .ok () ∧
        Band.share.contains (x.quote / d) = true ∧ Band.share.contains (x.base / d) = true := by
  obtain ⟨hmax, hmin⟩ := Reserves.larger_eq_max_and_smaller_eq_min hquote
  simp only [guards_eq_ok, guarded_iff_inBands, Band.contains_iff, Band.largerReserve, Band.share,
    hmax, hmin]
  constructor
  · intro h
    exact ⟨⟨h.constants, h.larger, h.ratio⟩, h.quoteShare, h.baseShare⟩
  · rintro ⟨⟨hconstants, hlarger, hratio⟩, hquoteShare, hbaseShare⟩
    exact ⟨hconstants, hquote, hbase, hlarger, hratio, hd, hquoteShare, hbaseShare⟩

/-- An invariant comes out exactly if it is safe and Newton's method settles on it. -/
theorem invariant_eq_ok_iff_safe :
    s.invariant x = .ok d ↔ s.SafeInvariant x d ∧ s.SettlesOnInvariant x d := by
  constructor
  · intro h
    obtain ⟨hquote, hbase, hd, -⟩ := positive_of_invariant h
    obtain ⟨hguards, hshares, hsettles⟩ := invariant_eq_ok.mp h
    exact ⟨(safeInvariant_iff hquote hbase hd).mpr ⟨hguards, hshares⟩, hsettles⟩
  · rintro ⟨hsafe, hsettles⟩
    obtain ⟨hguards, hshares⟩ := (safeInvariant_iff hsafe.quote hsafe.base hsafe.invariant).mp hsafe
    exact invariant_eq_ok.mpr ⟨hguards, hshares, hsettles⟩

/-! ## The reserve -/

/-- A known reserve and an invariant inside the safety bands, and the other reserve as a
safe share of that invariant. -/
structure SafeReserve (s : Shape) (known d y : Float) : Prop where
  constants : s.InBands
  invariant : 0.1 ≤ d ∧ d ≤ 1e15
  knownReserve : Positive known
  knownShare : 0.02 ≤ 2 * known / d ∧ 2 * known / d ≤ 200
  solvedReserve : Positive y
  solvedShare : 1e-2 ≤ y / d ∧ y / d ≤ 1e2

/-- Newton's method for the reserve beside a known one settles on `y`. -/
def SettlesOnReserve (s : Shape) (known d y : Float) : Prop :=
  Newton.SettlesOn (s.reserveStep known d) (acceptReserve d) Newton.stepLimit
    (d * d / (known * 2 * 2)) y

theorem acceptReserve_eq_ok {e : Float} :
    acceptReserve d e = .ok y ↔ e = y ∧ Band.share.contains (y / d) = true := by
  unfold acceptReserve
  constructor
  · intro h
    split at h
    · cases h
      exact ⟨rfl, ‹_›⟩
    · cases h
  · rintro ⟨rfl, hshare⟩
    exact if_pos hshare

/-- Wherever the search starts, it gives what it settles on if this is a sane share of
the invariant. -/
theorem reserveFrom_eq_ok {start : Float} : s.reserveFrom known d start = .ok y ↔
    acceptReserve d y = .ok y ∧
      Newton.SettlesOn (s.reserveStep known d) (acceptReserve d) Newton.stepLimit start y :=
  Newton.run_eq_ok_iff_settlesOn (fun _ _ h => eq_of_reserveStep_done h)
    (fun _ _ h => (acceptReserve_eq_ok.mp h).1)

theorem reserve_eq_ok : s.reserve x d asset = .ok y ↔
    s.guarded = .ok () ∧ Band.invariant.contains d = true ∧
      Band.knownShare.contains (2 * x.amount asset.other / d) = true ∧
        Band.share.contains (y / d) = true ∧ s.SettlesOnReserve (x.amount asset.other) d y := by
  have hshare : acceptReserve d y = .ok y ↔ Band.share.contains (y / d) = true :=
    acceptReserve_eq_ok.trans (and_iff_right rfl)
  simp only [reserve, Outcome.test_bind_eq_ok, guardBand_eq_ok, reserveFrom_eq_ok, hshare]
  rfl

/-- A share within the band is that of a positive reserve. -/
theorem positive_of_knownShare (hd : Positive d)
    (h : Band.knownShare.contains (2 * known / d) = true) : Positive known := by
  have hshare := Band.positive_of_contains ⟨_, _, _, rfl⟩ ⟨_, _, _, rfl⟩ h
  exact (Positive.of_mul_left positive_two.unsigned (hshare.of_div_right hd.unsigned)).2

/-- The ends of the band of a known share are twice those of a share, with no rounding. -/
theorem knownShare_eq : Band.knownShare = ⟨0.02, 200⟩ := by
  have hlow : (1e-2 * 2 : Float) = 0.02 := by decide +kernel
  have hhigh : (1e2 * 2 : Float) = 200 := by decide +kernel
  rw [Band.knownShare, hlow, hhigh]

/-- The guards of the solver and its test of the share say that all lies inside its band,
and that the reserves are positive and finite. -/
theorem safeReserve_iff : s.SafeReserve known d y ↔
    s.guarded = .ok () ∧ Band.invariant.contains d = true ∧
      Band.knownShare.contains (2 * known / d) = true ∧ Band.share.contains (y / d) = true := by
  -- signs are read off the bands before their ends are written out
  have hpositive (hd : Band.invariant.contains d = true)
      (hknown : Band.knownShare.contains (2 * known / d) = true)
      (hshare : Band.share.contains (y / d) = true) : Positive known ∧ Positive y := by
    obtain ⟨hd, -⟩ := positive_of_invariantBand hd
    exact ⟨positive_of_knownShare hd hknown,
      (positive_of_share hshare).of_div_right hd.unsigned⟩
  rw [guarded_iff_inBands]
  simp only [knownShare_eq, Band.contains_iff, Band.invariant, Band.share] at hpositive ⊢
  constructor
  · intro h
    exact ⟨h.constants, h.invariant, h.knownShare, h.solvedShare⟩
  · rintro ⟨hconstants, hd, hknown, hshare⟩
    obtain ⟨hother, hy⟩ := hpositive hd hknown hshare
    exact ⟨hconstants, hd, hother, hknown, hy, hshare⟩

/-- A reserve comes out exactly if it is safe and Newton's method settles on it. -/
theorem reserve_eq_ok_iff_safe : s.reserve x d asset = .ok y ↔
    s.SafeReserve (x.amount asset.other) d y ∧ s.SettlesOnReserve (x.amount asset.other) d y := by
  rw [reserve_eq_ok, safeReserve_iff]
  simp only [and_assoc]

theorem reserveAt_eq_ok : s.reserveAt x d index = .ok y ↔
    ∃ asset, Asset.ofIndex? index = some asset ∧ s.reserve x d asset = .ok y := by
  simp only [reserveAt, Outcome.bind_eq_ok, Asset.ofIndex_eq_ok]

/-! ## Both solvers -/

/-- Whatever the solvers are given, NaN and infinities among it, an invariant of two
reserves comes out exactly if Newton's method settles on it within its steps, it is
positive and finite, and it lies inside its bands with the reserves and the constants of
the curve.  A reserve that is asked for by its number comes out exactly if there is an
asset with that number, and the same holds of it beside the other reserve. -/
theorem answers_stay_in_bands (s : Shape) (x : Reserves) (d : Float) :
    (s.invariant x = .ok d ↔ s.SafeInvariant x d ∧ s.SettlesOnInvariant x d) ∧
    ∀ index y, s.reserveAt x d index = .ok y ↔
      index < 2 ∧ ∃ asset, Asset.ofIndex? index = some asset ∧
        s.SafeReserve (x.amount asset.other) d y ∧
          s.SettlesOnReserve (x.amount asset.other) d y := by
  refine ⟨invariant_eq_ok_iff_safe, fun index y => ?_⟩
  simp only [reserveAt_eq_ok, reserve_eq_ok_iff_safe]
  constructor
  · rintro ⟨asset, hasset, h⟩
    exact ⟨Asset.lt_two_of_ofIndex? hasset, asset, hasset, h⟩
  · rintro ⟨-, h⟩
    exact h

/-- Constants at the ends of their bands, the smallest reserves that have an invariant,
and a reserve solved beside the smallest invariant with a NaN in its own place. -/
theorem answers_stay_in_bands_at_ends :
    let s : Shape := ⟨4000, 2e-2⟩
    (∃ d, s.invariant ⟨1e-9, 1e-9⟩ = .ok d ∧ s.SafeInvariant ⟨1e-9, 1e-9⟩ d) ∧
      ∃ y, s.reserveAt ⟨0.05, 0 / 0⟩ 0.1 1 = .ok y ∧ s.SafeReserve 0.05 0.1 y := by
  intro s
  obtain ⟨d, hd⟩ := Outcome.isOk_iff.mp (by decide +kernel :
    (s.invariant ⟨1e-9, 1e-9⟩).isOk = true)
  obtain ⟨y, hy⟩ := Outcome.isOk_iff.mp (by decide +kernel :
    (s.reserveAt ⟨0.05, 0 / 0⟩ 0.1 1).isOk = true)
  obtain ⟨hinvariant, -⟩ := (answers_stay_in_bands s ⟨1e-9, 1e-9⟩ d).1.mp hd
  obtain ⟨-, asset, hasset, hreserve, -⟩ :=
    ((answers_stay_in_bands s ⟨0.05, 0 / 0⟩ 0.1).2 1 y).mp hy
  cases hasset
  exact ⟨⟨d, hd, hinvariant⟩, y, hy, hreserve⟩

end Shape

end VirtualMarket
