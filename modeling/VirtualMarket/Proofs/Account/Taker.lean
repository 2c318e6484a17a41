/-
VirtualMarket.Proofs.Account.Taker — a position is worth what closing it trades.

A position is valued by the quote for the trade that closes it, so its value is
that of the trade itself, whenever that is executed.  A short is compared with the
base reserve before it is quoted.  No size is lost by that: a purchase of the whole
reserve, or of more, leaves no positive base behind, and then the known share is
outside its band, so the solver refuses to quote it as well.
-/
import VirtualMarket.Proofs.Account.Maker
import VirtualMarket.Proofs.Curve.Answers
import VirtualMarket.Proofs.Double.Difference
import VirtualMarket.Proofs.Market.Execution

namespace VirtualMarket

open Double

/-! ## Spent reserves -/

/-- The solver refuses a known reserve outside its band, if it has not refused
anything before. -/
theorem Shape.reserve_eq_error {s : Shape} {x : Reserves} {d : Float} {asset : Asset}
    (h : ¬ Band.knownShare.contains (2 * x.amount asset.other / d) = true) :
    ∃ quantity value, s.reserve x d asset = .error (.unsafeParameter quantity value) := by
  have hguard (q : Quantity) (b : Band) (y : Float) :
      Outcome.FaultsIn (fun fault => ∃ quantity value, fault = .unsafeParameter quantity value)
        (guardBand b q y) :=
    faultsIn_guardBand ⟨q, y, rfl⟩ b
  obtain ⟨fault, ⟨quantity, value, rfl⟩, hr⟩ :=
    -- the guards of the constants and of the invariant, then that of the known share
    (Outcome.FaultsIn.bind (hguard _ _ _) fun _ => hguard _ _ _).exists_error fun _ _ =>
      (hguard .invariant .invariant d).exists_error fun _ _ =>
        (hguard .knownShare .knownShare _).exists_error fun _ hknown =>
          absurd (guardBand_eq_ok.mp hknown) h
  exact ⟨quantity, value, hr⟩

/-- A purchase of all the base there is, or of more, is not quoted. -/
theorem Curve.quoteInput_of_spent {c : Curve} {r : Reserves} {size d priceScale : Float}
    (hb : Positive r.base) (hd : Positive d) (hp : Positive priceScale) (hs : 0 < size)
    (h : ¬ size < r.base) :
    ∃ quantity value,
      c.quoteInput 0 1 size r d priceScale = .error (.unsafeParameter quantity value) := by
  have hspent : ¬ Band.knownShare.contains (2 * ((r.base - size) * priceScale) / d) = true := by
    intro hc
    have hleft := (Shape.positive_of_knownShare hd hc).of_mul_right hp.unsigned
    exact h (hb.lt_of_sub hs hleft.1)
  obtain ⟨quantity, value, hr⟩ : ∃ quantity value,
      c.reserve ((r.withdraw .base size).scaled priceScale) d .quote =
        .error (.unsafeParameter quantity value) := Shape.reserve_eq_error hspent
  have hpair : exchangePair 0 1 size = .ok (.quote, .base) := if_pos hs
  refine ⟨quantity, value, ?_⟩
  rw [quoteInput, hpair]
  change c.reserve _ d .quote >>= _ = _
  rw [hr]
  rfl

/-! ## Values -/

namespace Pool

variable {p : Pool} {size openNotional : Float}

/-- The value of a position in a pool. -/
def closing (p : Pool) (position : Position) : Outcome Closing :=
  p.curve.closePosition position p.state.reserves p.state.invariant p.state.priceScale

/-- It is the answer that the pool gives for it. -/
theorem perform_closePosition (p : Pool) (position : Position) :
    p.perform (.closePosition position) =
      p.closing position >>= fun closing => .ok (.closing closing, p) := rfl

/-- The value of a short, by its size. -/
theorem closing_of_short (hd : Band.invariant.low ≤ p.state.invariant) (hs : 0 < size) :
    p.closing ⟨-size, openNotional⟩ =
      if size > p.state.reserves.base then
        .error (.insufficientLiquidity size p.state.reserves.base)
      else p.quotePurchase size >>= fun q => .ok ⟨q.amount, openNotional - q.amount⟩ := by
  have hshort : (Position.mk (-size) openNotional).size < 0 := neg_lt_zero hs
  rw [closing, Curve.closePosition_of_short hd hshort]
  simp only [Double.neg_neg]
  rfl

/-- The solver refuses to quote a purchase of all the base there is, or of more. -/
theorem quotePurchase_of_spent (hv : p.state.Valid) (hs : 0 < size)
    (h : ¬ size < p.state.reserves.base) :
    ∃ quantity value, p.quotePurchase size = .error (.unsafeParameter quantity value) := by
  obtain ⟨-, hb, hinv, hp, -⟩ := State.valid_iff.mp hv
  exact Curve.quoteInput_of_spent hb hinv hp hs h

/-- The value of a short is read off the purchase of it: what the comparison with the
reserve refuses would not have been quoted. -/
theorem closing_of_short_iff (hv : p.state.Valid) (hd : Band.invariant.low ≤ p.state.invariant)
    (hs : 0 < size) {closing : Closing} :
    p.closing ⟨-size, openNotional⟩ = .ok closing ↔
      ∃ q, p.quotePurchase size = .ok q ∧ closing = ⟨q.amount, openNotional - q.amount⟩ := by
  by_cases hbeyond : p.state.reserves.base < size
  · obtain ⟨quantity, value, hquote⟩ := quotePurchase_of_spent hv hs (Double.lt_asymm hbeyond)
    rw [closing_of_short hd hs, if_pos hbeyond, hquote]
    exact iff_of_false nofun fun ⟨_, h, _⟩ => nomatch h
  · rw [closing_of_short hd hs, if_neg hbeyond, Outcome.bind_eq_ok]
    simp only [Except.ok.injEq, eq_comm]

/-- A trade exchanges the amount of its quote. -/
theorem amount_of_trade {after : Pool} {quoted : Outcome Quote} {violates : Float → Prop}
    [DecidablePred violates] {reserves : Float → Reserves} {bound : Float} {now : Int}
    {execution : Execution}
    (h : p.trade quoted violates reserves size bound now = .ok (execution, after)) :
    ∃ quote, quoted = .ok quote ∧ execution.amount = quote.amount := by
  obtain ⟨quote, -, hq, -, -, -, he⟩ := trade_eq_ok h
  exact ⟨quote, hq, congrArg Execution.amount he⟩

/-- How the value of a position is related to the trade that closes it. -/
structure ValuedBy (valued : Outcome Closing) (quoted : Outcome Quote)
    (executed : Float → Int → Outcome (Execution × Pool)) (gain : Float → Float) : Prop where
  /-- There is a value exactly if there is a quote. -/
  isOk : (∃ closing, valued = .ok closing) ↔ ∃ quote, quoted = .ok quote
  /-- The notional is the amount of the quote, and the gain is computed from it. -/
  terms : ∀ closing, valued = .ok closing →
    (∃ quote, quoted = .ok quote ∧ closing.notional = quote.amount) ∧
      closing.unrealized = gain closing.notional
  /-- The notional is what the trade exchanges, at any bound and any time. -/
  traded : ∀ bound now execution after, executed bound now = .ok (execution, after) →
    ∃ closing, valued = .ok closing ∧ execution.amount = closing.notional

/-- A value that is read off a quote is that of every trade that follows the quote. -/
theorem valuedBy_of_quote {valued : Outcome Closing} {quoted : Outcome Quote}
    {executed : Float → Int → Outcome (Execution × Pool)} {gain : Float → Float}
    (hread : ∀ closing, valued = .ok closing ↔
      ∃ quote, quoted = .ok quote ∧ closing = ⟨quote.amount, gain quote.amount⟩)
    (hexec : ∀ bound now execution after, executed bound now = .ok (execution, after) →
      ∃ quote, quoted = .ok quote ∧ execution.amount = quote.amount) :
    ValuedBy valued quoted executed gain where
  isOk := by
    simp only [hread]
    exact ⟨fun ⟨_, quote, hq, _⟩ => ⟨quote, hq⟩, fun ⟨quote, hq⟩ => ⟨_, quote, hq, rfl⟩⟩
  terms closing h := by
    obtain ⟨quote, hq, rfl⟩ := (hread closing).mp h
    exact ⟨⟨quote, hq, rfl⟩, rfl⟩
  traded bound now execution after h := by
    obtain ⟨quote, hq, ha⟩ := hexec bound now execution after h
    exact ⟨_, (hread _).mpr ⟨quote, hq, rfl⟩, ha⟩

/-- The value of a position is that of the trade that closes it: a long has one exactly
if its sale is quoted, a short exactly if its purchase is, and the notional is what the
trade exchanges.  A short of all the base there is, or of more, has no value, since
either the comparison with the reserve or a guard of the solver refuses it. -/
theorem closing_is_trading (hv : p.state.Valid) (hd : Band.invariant.low ≤ p.state.invariant)
    (hs : 0 < size) (openNotional : Float) :
    ValuedBy (p.closing ⟨size, openNotional⟩) (p.quoteSale size) (p.sellAt size)
        (fun notional => notional - openNotional) ∧
      ValuedBy (p.closing ⟨-size, openNotional⟩) (p.quotePurchase size) (p.buyAt size)
        (fun notional => openNotional - notional) ∧
      (p.state.reserves.base < size → p.closing ⟨-size, openNotional⟩ =
        .error (.insufficientLiquidity size p.state.reserves.base)) ∧
      ((size == p.state.reserves.base) = true → ∃ quantity value,
        p.closing ⟨-size, openNotional⟩ = .error (.unsafeParameter quantity value)) := by
  refine ⟨?_, ?_, fun hbeyond => ?_, fun hall => ?_⟩
  · refine valuedBy_of_quote (fun _ => Curve.closing_of_long_iff hd hs) fun _ _ _ _ h => ?_
    rw [sellAt_eq_trade] at h
    exact amount_of_trade h
  · refine valuedBy_of_quote (fun _ => closing_of_short_iff hv hd hs) fun _ _ _ _ h => ?_
    rw [buyAt_eq_trade] at h
    exact amount_of_trade h
  · rw [closing_of_short hd hs, if_pos hbeyond]
  · obtain ⟨quantity, value, hquote⟩ :=
      quotePurchase_of_spent hv hs fun hlt => Double.not_beq_of_lt (.inl hlt) hall
    rw [closing_of_short hd hs, if_neg fun hlt => Double.not_beq_of_lt (.inr hlt) hall, hquote]
    exact ⟨quantity, value, rfl⟩

/-- A long of seven and a short of seven have a value, a short of the whole reserve is
refused by a guard, and one of more by the comparison. -/
theorem closing_is_trading_even :
    (∃ closing, even.closing ⟨7, 0⟩ = .ok closing) ∧
      (∃ closing quote, even.closing ⟨-7, 8⟩ = .ok closing ∧ even.quotePurchase 7 = .ok quote ∧
        closing.notional = quote.amount ∧ closing.unrealized = 8 - quote.amount) ∧
      (∃ quantity value, even.closing ⟨-1000, 0⟩ = .error (.unsafeParameter quantity value)) ∧
      even.closing ⟨-1001, 0⟩ = .error (.insufficientLiquidity 1001 1000) := by
  have hv := built_even.valid
  have hd : Band.invariant.low ≤ even.state.invariant := by decide +kernel
  obtain ⟨hlong, -⟩ := closing_is_trading hv hd (by decide +kernel : (0 : Float) < 7) 0
  obtain ⟨-, hshort, -⟩ := closing_is_trading hv hd (by decide +kernel : (0 : Float) < 7) 8
  refine ⟨?_, ?_, ?_, ?_⟩
  · exact hlong.isOk.mpr (Outcome.isOk_iff.mp (by decide +kernel))
  · obtain ⟨closing, hc⟩ := hshort.isOk.mpr (Outcome.isOk_iff.mp (by decide +kernel))
    obtain ⟨⟨quote, hq, hn⟩, hu⟩ := hshort.terms closing hc
    exact ⟨closing, quote, hc, hq, hn, hu.trans (congrArg (8 - ·) hn)⟩
  · exact (closing_is_trading hv hd (by decide +kernel : (0 : Float) < 1000) 0).2.2.2
      (by decide +kernel)
  · exact (closing_is_trading hv hd (by decide +kernel : (0 : Float) < 1001) 0).2.2.1
      (by decide +kernel)

end Pool

end VirtualMarket
