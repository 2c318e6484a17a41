/-
VirtualMarket.Proofs.Market.Fees — a higher fee rate is never to the trader's good.

What an exchange is worth before the fee is found on the curve, which does not know
the rate.  The fee is the rate's share of it, taken from what is handed out or put on
top of what is paid in.  Each of these operations keeps order, so quotes at two rates
are in the order of the rates, to the last bit.
-/
import VirtualMarket.Proofs.Double.Monotone
import VirtualMarket.Proofs.Market.Quote

namespace VirtualMarket

open Double

variable {source target : Nat} {amount d priceScale raw f f' : Float} {r : Reserves} {q : Quote}

/-! ## Before the fee -/

namespace Shape

/-- A curve of this shape with a fee rate. -/
def withFee (s : Shape) (rate : Float) : Curve :=
  { s with feeRate := rate }

/-- The amount of `target` that `amount` of `source` is worth. -/
def rawOutput (s : Shape) (source target : Nat) (amount : Float) (reserves : Reserves)
    (d priceScale : Float) : Outcome Float := do
  let (source, target) ← exchangePair source target amount
  let x := (reserves.deposit source amount).scaled priceScale
  let left ← s.reserve x d target
  .ok (unscaled target priceScale (x.amount target - left - smallestUnit))

/-- The amount of `source` that `amount` of `target` is worth. -/
def rawInput (s : Shape) (source target : Nat) (amount : Float) (reserves : Reserves)
    (d priceScale : Float) : Outcome Float := do
  let (source, target) ← exchangePair source target amount
  let x := (reserves.withdraw target amount).scaled priceScale
  let needed ← s.reserve x d source
  .ok (unscaled source priceScale (needed - x.amount source + smallestUnit))

end Shape

namespace Curve

variable {c : Curve}

/-- A quote deducts the rate's share of what the exchange is worth, which is finite. -/
theorem rawOutput_of_quoteOutput
    (h : c.quoteOutput source target amount r d priceScale = .ok q) :
    ∃ raw, c.rawOutput source target amount r d priceScale = .ok raw ∧ raw.isFinite = true ∧
      q.fee = c.feeRate * raw ∧ q.amount = raw - q.fee := by
  obtain ⟨_, _, -, -, hsane⟩ := sane_of_quoteOutput h
  obtain ⟨_, hpair, h⟩ := Outcome.bind_eq_ok.mp h
  obtain ⟨left, hleft, h⟩ := Outcome.bind_eq_ok.mp h
  obtain ⟨price, -, h⟩ := Outcome.bind_eq_ok.mp h
  cases h
  exact ⟨_, Outcome.bind_eq_ok.mpr ⟨_, hpair, Outcome.bind_eq_ok.mpr ⟨left, hleft, rfl⟩⟩,
    (isFinite_of_sub hsane.amount).1, rfl, rfl⟩

/-- A quote adds the rate's share of what the exchange is worth, which is finite. -/
theorem rawInput_of_quoteInput
    (h : c.quoteInput source target amount r d priceScale = .ok q) :
    ∃ raw, c.rawInput source target amount r d priceScale = .ok raw ∧ raw.isFinite = true ∧
      q.fee = c.feeRate * raw ∧ q.amount = raw + q.fee := by
  obtain ⟨_, _, -, -, hsane⟩ := sane_of_quoteInput h
  obtain ⟨_, hpair, h⟩ := Outcome.bind_eq_ok.mp h
  obtain ⟨needed, hneeded, h⟩ := Outcome.bind_eq_ok.mp h
  obtain ⟨price, -, h⟩ := Outcome.bind_eq_ok.mp h
  cases h
  exact ⟨_, Outcome.bind_eq_ok.mpr ⟨_, hpair, Outcome.bind_eq_ok.mpr ⟨needed, hneeded, rfl⟩⟩,
    (isFinite_of_add hsane.amount).1, rfl, rfl⟩

/-- What the exchange is known to be worth is what the fee is a share of. -/
theorem fee_of_quoteOutput (hworth : c.rawOutput source target amount r d priceScale = .ok raw)
    (h : c.quoteOutput source target amount r d priceScale = .ok q) :
    raw.isFinite = true ∧ q.fee = c.feeRate * raw ∧ q.amount = raw - c.feeRate * raw := by
  obtain ⟨found, hfound, hfinite, hfee, hamount⟩ := rawOutput_of_quoteOutput h
  obtain rfl : raw = found := Except.ok.inj (hworth.symm.trans hfound)
  exact ⟨hfinite, hfee, hfee ▸ hamount⟩

/-- What the exchange is known to be worth is what the fee is a share of. -/
theorem fee_of_quoteInput (hworth : c.rawInput source target amount r d priceScale = .ok raw)
    (h : c.quoteInput source target amount r d priceScale = .ok q) :
    raw.isFinite = true ∧ q.fee = c.feeRate * raw ∧ q.amount = raw + c.feeRate * raw := by
  obtain ⟨found, hfound, hfinite, hfee, hamount⟩ := rawInput_of_quoteInput h
  obtain rfl : raw = found := Except.ok.inj (hworth.symm.trans hfound)
  exact ⟨hfinite, hfee, hfee ▸ hamount⟩

end Curve

/-! ## Fees at two rates -/

/-- Two fee rates in order, from zero up to but not including one. -/
structure OrderedRates (f f' : Float) : Prop where
  nonneg : 0 ≤ f
  le : f ≤ f'
  lt_one : f' < 1

namespace OrderedRates

variable (h : OrderedRates f f')
include h

theorem isFinite : f'.isFinite = true :=
  isFinite_of_le (Double.le_trans h.nonneg h.le) (Double.le_of_lt h.lt_one) rfl

variable (hraw : Positive raw)
include hraw

/-- Fees are in the order of their rates, and no more than what they are a share of. -/
theorem fees : 0 ≤ f * raw ∧ f * raw ≤ f' * raw ∧ f' * raw ≤ raw := by
  rw [Double.mul_comm f, Double.mul_comm f']
  exact ⟨hraw.mul_nonneg h.nonneg, hraw.mul_le_mul h.nonneg h.le h.isFinite,
    hraw.mul_le_self (Double.le_trans h.nonneg h.le) (Double.le_of_lt h.lt_one)⟩

/-- What is left after the fee is in the opposite order. -/
theorem deducted : 0 ≤ raw - f' * raw ∧ raw - f' * raw ≤ raw - f * raw ∧
    raw - f * raw ≤ raw := by
  obtain ⟨hnonneg, hle, hshare⟩ := h.fees hraw
  have hself := hraw.sub_le_sub (Double.le_refl rfl) hnonneg (Double.le_trans hle hshare)
  rw [Double.sub_zero] at hself
  exact ⟨hraw.sub_nonneg (Double.le_trans hnonneg hle) hshare,
    hraw.sub_le_sub hnonneg hle hshare, hself⟩

/-- What is paid with the fee is in the same order. -/
theorem added : raw ≤ raw + f * raw ∧ raw + f * raw ≤ raw + f' * raw := by
  obtain ⟨hnonneg, hle, hshare⟩ := h.fees hraw
  exact ⟨hraw.le_add hnonneg, hraw.add_le_add hnonneg hle
    (isFinite_of_le (Double.le_trans hnonneg hle) hshare (positive_iff.mp hraw).2)⟩

end OrderedRates

/-- Whatever is exchanged on whatever curve, if it is worth something: of two quotes at
two fee rates the one at the higher rate has the higher fee, hands out no more and asks
for no less.  No fee is negative, and nothing negative is handed out; and no quote is
better than the exchange without a fee. -/
theorem fees_follow_rates (s : Shape) (source target : Nat) (amount : Float) (r : Reserves)
    (d priceScale raw f f' : Float) (q q' : Quote) (hf : 0 ≤ f) (hle : f ≤ f') (hf' : f' < 1)
    (hraw : 0 < raw) :
    (s.rawOutput source target amount r d priceScale = .ok raw →
      (s.withFee f).quoteOutput source target amount r d priceScale = .ok q →
      (s.withFee f').quoteOutput source target amount r d priceScale = .ok q' →
        0 ≤ q.fee ∧ q.fee ≤ q'.fee ∧
          0 ≤ q'.amount ∧ q'.amount ≤ q.amount ∧ q.amount ≤ raw) ∧
    (s.rawInput source target amount r d priceScale = .ok raw →
      (s.withFee f).quoteInput source target amount r d priceScale = .ok q →
      (s.withFee f').quoteInput source target amount r d priceScale = .ok q' →
        0 ≤ q.fee ∧ q.fee ≤ q'.fee ∧ raw ≤ q.amount ∧ q.amount ≤ q'.amount) := by
  have hrates : OrderedRates f f' := ⟨hf, hle, hf'⟩
  constructor
  · intro hworth hq hq'
    obtain ⟨hfinite, hfee, hamount⟩ := Curve.fee_of_quoteOutput (c := s.withFee f) hworth hq
    obtain ⟨-, hfee', hamount'⟩ := Curve.fee_of_quoteOutput (c := s.withFee f') hworth hq'
    have hpos : Positive raw := positive_iff.mpr ⟨hraw, hfinite⟩
    obtain ⟨hnonneg, hfees, -⟩ := hrates.fees hpos
    rw [hamount, hamount', hfee, hfee']
    exact ⟨hnonneg, hfees, hrates.deducted hpos⟩
  · intro hworth hq hq'
    obtain ⟨hfinite, hfee, hamount⟩ := Curve.fee_of_quoteInput (c := s.withFee f) hworth hq
    obtain ⟨-, hfee', hamount'⟩ := Curve.fee_of_quoteInput (c := s.withFee f') hworth hq'
    have hpos : Positive raw := positive_iff.mpr ⟨hraw, hfinite⟩
    obtain ⟨hnonneg, hfees, -⟩ := hrates.fees hpos
    rw [hamount, hamount', hfee, hfee']
    exact ⟨hnonneg, hfees, hrates.added hpos⟩

/-- Selling into an even market, and buying from it, without a fee and at thirty basis
points. -/
theorem fees_follow_rates_even :
    let s : Shape := {}
    let r : Reserves := ⟨1000, 1000⟩
    (∃ q q', (s.withFee 0).quoteOutput 1 0 0.01 r 2000 1 = .ok q ∧
      (s.withFee 0.003).quoteOutput 1 0 0.01 r 2000 1 = .ok q' ∧
        0 ≤ q'.amount ∧ q'.amount ≤ q.amount) ∧
    ∃ q q', (s.withFee 0).quoteInput 0 1 0.01 r 2000 1 = .ok q ∧
      (s.withFee 0.003).quoteInput 0 1 0.01 r 2000 1 = .ok q' ∧ q.amount ≤ q'.amount := by
  intro s r
  have h0 : (0 : Float) ≤ 0 := by decide +kernel
  have hle : (0 : Float) ≤ 0.003 := by decide +kernel
  have h1 : (0.003 : Float) < 1 := by decide +kernel
  constructor
  · obtain ⟨raw, hraw, hpos⟩ := Outcome.any_toOption_iff.mp (by decide +kernel :
      (s.rawOutput 1 0 0.01 r 2000 1).toOption.any (0 < ·) = true)
    obtain ⟨q, hq⟩ := Outcome.isOk_iff.mp (by decide +kernel :
      ((s.withFee 0).quoteOutput 1 0 0.01 r 2000 1).isOk = true)
    obtain ⟨q', hq'⟩ := Outcome.isOk_iff.mp (by decide +kernel :
      ((s.withFee 0.003).quoteOutput 1 0 0.01 r 2000 1).isOk = true)
    obtain ⟨hsale, -⟩ := fees_follow_rates s 1 0 0.01 r 2000 1 raw 0 0.003 q q' h0 hle h1
      (of_decide_eq_true hpos)
    obtain ⟨-, -, hnonneg, hless, -⟩ := hsale hraw hq hq'
    exact ⟨q, q', hq, hq', hnonneg, hless⟩
  · obtain ⟨raw, hraw, hpos⟩ := Outcome.any_toOption_iff.mp (by decide +kernel :
      (s.rawInput 0 1 0.01 r 2000 1).toOption.any (0 < ·) = true)
    obtain ⟨q, hq⟩ := Outcome.isOk_iff.mp (by decide +kernel :
      ((s.withFee 0).quoteInput 0 1 0.01 r 2000 1).isOk = true)
    obtain ⟨q', hq'⟩ := Outcome.isOk_iff.mp (by decide +kernel :
      ((s.withFee 0.003).quoteInput 0 1 0.01 r 2000 1).isOk = true)
    obtain ⟨-, hpurchase⟩ := fees_follow_rates s 0 1 0.01 r 2000 1 raw 0 0.003 q q' h0 hle h1
      (of_decide_eq_true hpos)
    obtain ⟨-, -, -, hmore⟩ := hpurchase hraw hq hq'
    exact ⟨q, q', hq, hq', hmore⟩

end VirtualMarket
