/-
VirtualMarket.Proofs.Sizing.Search — what a search has found.

A search returns a size only after a quote has put the marginal price on the
far side of the target, and no further past it than the tolerance allows.  With
settings that pass their test the size is positive, and no bound of the band is
a NaN, so that the comparisons of the search say all that they seem to say.
-/
import VirtualMarket.Proofs.Double.Sum
import VirtualMarket.Proofs.Outcome
import VirtualMarket.Sizing.Search

namespace VirtualMarket.Sizing

open Double

variable {s : Sizing} {v : Venue} {target size price : Float}

/-! ## Settings -/

theorem validate_eq_ok :
    s.validate = .ok () ↔
      Positive s.lot ∧ s.maxSteps ≠ 0 ∧ 0 ≤ s.tolerance ∧ s.tolerance < 1 := by
  have hlot : (!(s.lot > 0) || !s.lot.isFinite) = true ↔ ¬ Positive s.lot := by
    simp [positive_iff, imp_iff_not_or]
  have htol : (!(0 ≤ s.tolerance && s.tolerance < 1)) = true ↔
      ¬ (0 ≤ s.tolerance ∧ s.tolerance < 1) := by
    simp [imp_iff_not_or]
  unfold validate
  split
  · rename_i h
    exact iff_of_false nofun fun ⟨hl, _⟩ => hlot.mp h hl
  · rename_i h
    have hl : Positive s.lot := not_not.mp (mt hlot.mpr h)
    split
    · rename_i hsteps
      exact iff_of_false nofun fun ⟨_, hn, _⟩ => hn hsteps
    · rename_i hsteps
      split
      · rename_i h
        exact iff_of_false nofun fun ⟨_, _, ht⟩ => htol.mp h ht
      · rename_i h
        exact iff_of_true rfl ⟨hl, hsteps, not_not.mp (mt htol.mpr h)⟩

/-! ## Bands -/

/-- The price is at or above the target, by no more than the tolerance. -/
def LandsAbove (s : Sizing) (target price : Float) : Prop :=
  target ≤ price ∧ price ≤ target * (1 + s.tolerance)

/-- The price is at or below the target, by no more than the tolerance. -/
def LandsBelow (s : Sizing) (target price : Float) : Prop :=
  price ≤ target ∧ target * (1 - s.tolerance) ≤ price

theorem landsAbove_of_not_lt (ht : Positive target) (hs : 0 ≤ s.tolerance) (h : target ≤ price)
    (hc : ¬ target * (1 + s.tolerance) < price) : s.LandsAbove target price := by
  have hsum : (1 + s.tolerance).isNaN = false := (le_iff.mp (positive_one.le_add hs)).2.1
  exact ⟨h, Double.le_of_not_lt (ht.isNaN_mul hsum) (le_iff.mp h).2.1 hc⟩

theorem landsBelow_of_not_lt (ht : Positive target) (hs : 0 ≤ s.tolerance) (h : price ≤ target)
    (hf : ¬ price < target * (1 - s.tolerance)) : s.LandsBelow target price := by
  have hdiff : (1 - s.tolerance).isNaN = false := positive_one.isNaN_sub (le_iff.mp hs).2.1
  exact ⟨h, Double.le_of_not_lt (le_iff.mp h).1 (ht.isNaN_mul hdiff) hf⟩

/-! ## Candidates -/

/-- A purchase that reaches the target is quoted inside the band above it. -/
theorem quote_of_purchaseReaches (ht : Positive target) (hs : 0 ≤ s.tolerance)
    (h : s.purchaseReaches v target size = .ok true) :
    ∃ quote, v.quotePurchase size = .ok quote ∧ s.LandsAbove target quote.markPrice := by
  unfold purchaseReaches at h
  split at h
  · cases h
  · obtain ⟨quote, hq, h⟩ := Outcome.bind_eq_ok.mp h
    split at h
    · cases h
    · rename_i hc
      have hreached : target ≤ quote.markPrice := by simpa using h
      exact ⟨quote, hq, landsAbove_of_not_lt ht hs hreached hc⟩

/-- A sale that reaches the target is quoted inside the band below it. -/
theorem quote_of_saleReaches (ht : Positive target) (hs : 0 ≤ s.tolerance)
    (h : s.saleReaches v target size = .ok true) :
    ∃ quote, v.quoteSale size = .ok quote ∧ s.LandsBelow target quote.markPrice := by
  obtain ⟨quote, hq, h⟩ := Outcome.bind_eq_ok.mp h
  split at h
  · cases h
  · rename_i hf
    have hreached : quote.markPrice ≤ target := by simpa using h
    exact ⟨quote, hq, landsBelow_of_not_lt ht hs hreached hf⟩

/-! ## The search -/

/-- A search that succeeds stops at a positive size that reaches its goal. -/
theorem walk_eq_ok {reached : Float → Outcome Bool} {steps : Nat} {found : Float}
    (hl : Positive s.lot) (hsize : 0 ≤ size) (h : s.walk reached steps size = .ok found) :
    0 < found ∧ reached found = .ok true := by
  induction steps generalizing size with
  | zero => cases h
  | succ steps ih =>
    -- a lot on top of what is not negative is at least the lot
    have hnext : 0 < size + s.lot := by
      rw [Double.add_comm]
      exact Double.lt_of_lt_of_le (positive_iff.mp hl).1 (hl.le_add hsize)
    unfold walk at h
    cases hr : reached (size + s.lot) with
    | error fault => simp [hr] at h
    | ok done =>
      cases done with
      | true =>
        simp only [hr, Except.ok.injEq] at h
        exact h ▸ ⟨hnext, hr⟩
      | false =>
        simp only [hr] at h
        exact ih (Double.le_of_lt hnext) h

/-- What a search says of a venue with the signed size that it returns. -/
inductive Found (s : Sizing) (v : Venue) (target : Float) : Float → Prop where
  | purchase {size : Float} {quote : Quote} (below : v.markPrice < target) (positive : 0 < size)
      (quoted : v.quotePurchase size = .ok quote) (lands : s.LandsAbove target quote.markPrice) :
      Found s v target size
  | sale {size : Float} {quote : Quote} (above : target < v.markPrice) (positive : 0 < size)
      (quoted : v.quoteSale size = .ok quote) (lands : s.LandsBelow target quote.markPrice) :
      Found s v target (-size)
  | nothing (notBelow : ¬ v.markPrice < target) (notAbove : ¬ target < v.markPrice) :
      Found s v target 0

/-- Sizing looks at the price once, to choose the direction, and then trusts
the quotes of that direction alone. -/
theorem found_of_sizeToTarget (hs : s.validate = .ok ())
    (h : s.sizeToTarget v target = .ok size) : s.Found v target size := by
  obtain ⟨hl, -, htol, -⟩ := validate_eq_ok.mp hs
  unfold sizeToTarget at h
  split at h
  · cases h
  · rename_i hguard
    have ht : Positive target := positive_iff.mpr (by simpa using hguard)
    split at h
    · rename_i below
      obtain ⟨hpos, hreached⟩ := walk_eq_ok hl (by decide) h
      obtain ⟨quote, hq, hlands⟩ := quote_of_purchaseReaches ht htol hreached
      exact .purchase below hpos hq hlands
    · rename_i notBelow
      split at h
      · rename_i above
        obtain ⟨found, hw, h⟩ := Outcome.bind_eq_ok.mp h
        cases h
        obtain ⟨hpos, hreached⟩ := walk_eq_ok hl (by decide) hw
        obtain ⟨quote, hq, hlands⟩ := quote_of_saleReaches ht htol hreached
        exact .sale above hpos hq hlands
      · rename_i notAbove
        cases h
        exact .nothing notBelow notAbove

end VirtualMarket.Sizing
