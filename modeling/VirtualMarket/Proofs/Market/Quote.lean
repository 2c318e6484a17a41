/-
VirtualMarket.Proofs.Market.Quote — no NaN and no infinity gets through a quote.

A quote tests the amount that is traded and nothing else.  It ends, though, by
solving the invariant of the reserves after the trade, and the solver takes
balanced reserves only.  The amount of the quote is a term of one of these
reserves and the fee a term of the amount, and no finite sum or difference has
an infinite term or a NaN.  So whatever went wrong on the way, if a quote comes
out then nothing did.
-/
import VirtualMarket.Proofs.Curve.Guards
import VirtualMarket.Proofs.Double.Difference
import VirtualMarket.Proofs.Market.Execution

namespace VirtualMarket

open Double

/-! ## Reserves behind scaled ones -/

/-- The reserves behind balanced ones are finite. -/
theorem Reserves.Balanced.isFinite {r : Reserves} {price : Float} (h : (r.scaled price).Balanced)
    (asset : Asset) : (r.amount asset).isFinite = true := by
  cases asset with
  | quote => exact (positive_iff.mp h.quote).2
  | base =>
    obtain ⟨s, m, e, hm, m', e', hm', hv, -⟩ := factors_of_mul_positive h.base
    change (view r.base).isFinite = true
    rw [hv]
    rfl

theorem Reserves.amount_withdraw (r : Reserves) (asset : Asset) (x : Float) :
    (r.withdraw asset x).amount asset = r.amount asset - x := by
  cases asset <;> rfl

theorem Reserves.amount_deposit (r : Reserves) (asset : Asset) (x : Float) :
    (r.deposit asset x).amount asset = r.amount asset + x := by
  cases asset <;> rfl

/-! ## Quotes -/

/-- There is a marginal price only for balanced reserves. -/
theorem Curve.balanced_of_markPriceAfter {c : Curve} {after : Reserves}
    {priceScale price : Float} (h : c.markPriceAfter after priceScale = .ok price) :
    (after.scaled priceScale).Balanced := by
  obtain ⟨d, hd, -⟩ := Outcome.bind_eq_ok.mp h
  exact Shape.balanced_of_invariant hd

/-- The numbers of a quote are finite, and the reserves that it leads to are
within the guards of the solver. -/
structure Quote.Sane (q : Quote) (after : Reserves) (priceScale : Float) : Prop where
  amount : q.amount.isFinite = true
  fee : q.fee.isFinite = true
  balanced : (after.scaled priceScale).Balanced

theorem Curve.sane_of_quoteOutput {c : Curve} {source target : Nat} {amount d priceScale : Float}
    {r : Reserves} {q : Quote} (h : c.quoteOutput source target amount r d priceScale = .ok q) :
    ∃ s t, Asset.ofIndex? source = some s ∧ Asset.ofIndex? target = some t ∧
      q.Sane ((r.deposit s amount).withdraw t q.amount) priceScale := by
  obtain ⟨⟨s, t⟩, hpair, h⟩ := Outcome.bind_eq_ok.mp h
  obtain ⟨hs, ht⟩ := exchangePair_eq_ok hpair
  obtain ⟨left, -, h⟩ := Outcome.bind_eq_ok.mp h
  obtain ⟨price, hm, h⟩ := Outcome.bind_eq_ok.mp h
  cases h
  have hb := balanced_of_markPriceAfter hm
  have hafter := hb.isFinite t
  rw [Reserves.amount_withdraw] at hafter
  have hamount := (isFinite_of_sub hafter).2
  exact ⟨s, t, Asset.ofIndex_eq_ok.mp hs, Asset.ofIndex_eq_ok.mp ht,
    ⟨hamount, (isFinite_of_sub hamount).2, hb⟩⟩

theorem Curve.sane_of_quoteInput {c : Curve} {source target : Nat} {amount d priceScale : Float}
    {r : Reserves} {q : Quote} (h : c.quoteInput source target amount r d priceScale = .ok q) :
    ∃ s t, Asset.ofIndex? source = some s ∧ Asset.ofIndex? target = some t ∧
      q.Sane ((r.withdraw t amount).deposit s q.amount) priceScale := by
  obtain ⟨⟨s, t⟩, hpair, h⟩ := Outcome.bind_eq_ok.mp h
  obtain ⟨hs, ht⟩ := exchangePair_eq_ok hpair
  obtain ⟨needed, -, h⟩ := Outcome.bind_eq_ok.mp h
  obtain ⟨price, hm, h⟩ := Outcome.bind_eq_ok.mp h
  cases h
  have hb := balanced_of_markPriceAfter hm
  have hafter := hb.isFinite s
  rw [Reserves.amount_deposit] at hafter
  have hamount := (isFinite_of_add hafter).2
  exact ⟨s, t, Asset.ofIndex_eq_ok.mp hs, Asset.ofIndex_eq_ok.mp ht,
    ⟨hamount, (isFinite_of_add hamount).2, hb⟩⟩

/-- Whatever a quote is asked for, with whatever constants of the curve: if one
comes out, its numbers are finite, and the reserves after the trade, scaled, are
positive and balanced. -/
theorem quotes_are_sane (c : Curve) (source target : Nat) (amount : Float) (r : Reserves)
    (d priceScale : Float) (q : Quote) :
    (c.quoteOutput source target amount r d priceScale = .ok q →
      ∃ s t, Asset.ofIndex? source = some s ∧ Asset.ofIndex? target = some t ∧
        q.Sane ((r.deposit s amount).withdraw t q.amount) priceScale) ∧
    (c.quoteInput source target amount r d priceScale = .ok q →
      ∃ s t, Asset.ofIndex? source = some s ∧ Asset.ofIndex? target = some t ∧
        q.Sane ((r.withdraw t amount).deposit s q.amount) priceScale) :=
  ⟨Curve.sane_of_quoteOutput, Curve.sane_of_quoteInput⟩

/-- A quote at a fee rate that no market would be set up with. -/
theorem quotes_are_sane_even :
    let c : Curve := { feeRate := -3 }
    ∃ q, c.quoteInput 0 1 7 ⟨1000, 1000⟩ 2000 1 = .ok q ∧
      q.Sane ((Reserves.withdraw ⟨1000, 1000⟩ .base 7).deposit .quote q.amount) 1 := by
  intro c
  obtain ⟨q, hq⟩ := Outcome.isOk_iff.mp (by decide +kernel :
    (c.quoteInput 0 1 7 ⟨1000, 1000⟩ 2000 1).isOk = true)
  obtain ⟨s, t, hs, ht, hsane⟩ := (quotes_are_sane c 0 1 7 ⟨1000, 1000⟩ 2000 1 q).2 hq
  cases hs
  cases ht
  exact ⟨q, hq, hsane⟩

end VirtualMarket
