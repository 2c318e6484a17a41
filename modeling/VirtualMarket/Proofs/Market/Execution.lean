/-
VirtualMarket.Proofs.Market.Execution — a quote is what execution does.

A quote predicts the marginal price on a copy of the reserves, execution writes
the reserves and lets the update find the invariant.  Both solve for the same
scaled reserves, so as long as the peg stays where it is both arrive at one
price.
-/
import VirtualMarket.Proofs.Market.History

namespace VirtualMarket

/-! ## Quotes -/

/-- The assets of an exchange that makes sense are those asked for. -/
theorem exchangePair_eq_ok {source target : Nat} {amount : Float} {pair : Asset × Asset}
    (h : exchangePair source target amount = .ok pair) :
    Asset.ofIndex source = .ok pair.1 ∧ Asset.ofIndex target = .ok pair.2 := by
  unfold exchangePair at h
  split at h
  · cases h
  · obtain ⟨a, ha, h⟩ := Outcome.bind_eq_ok.mp h
    obtain ⟨b, hb, h⟩ := Outcome.bind_eq_ok.mp h
    split at h <;> cases h
    exact ⟨ha, hb⟩

namespace Pool

/-- The marginal price of a quote is that of the reserves after the sale. -/
theorem markPrice_of_quoteSale {p : Pool} {size : Float} {q : Quote}
    (h : p.quoteSale size = .ok q) :
    p.curve.markPriceAfter (p.soldReserves size q.amount) p.state.priceScale = .ok q.markPrice := by
  obtain ⟨⟨source, target⟩, hp, h⟩ := Outcome.bind_eq_ok.mp h
  obtain ⟨hs, ht⟩ := exchangePair_eq_ok hp
  cases hs
  cases ht
  obtain ⟨left, -, h⟩ := Outcome.bind_eq_ok.mp h
  obtain ⟨price, hm, h⟩ := Outcome.bind_eq_ok.mp h
  cases h
  exact hm

/-- The marginal price of a quote is that of the reserves after the purchase. -/
theorem markPrice_of_quotePurchase {p : Pool} {size : Float} {q : Quote}
    (h : p.quotePurchase size = .ok q) :
    p.curve.markPriceAfter (p.boughtReserves size q.amount) p.state.priceScale
      = .ok q.markPrice := by
  obtain ⟨⟨source, target⟩, hp, h⟩ := Outcome.bind_eq_ok.mp h
  obtain ⟨hs, ht⟩ := exchangePair_eq_ok hp
  cases hs
  cases ht
  obtain ⟨needed, -, h⟩ := Outcome.bind_eq_ok.mp h
  obtain ⟨price, hm, h⟩ := Outcome.bind_eq_ok.mp h
  cases h
  exact hm

/-! ## Trades -/

/-- How the execution of a trade is related to the quote for it. -/
structure Follows (p : Pool) (quoted : Outcome Quote) (violates : Float → Prop)
    (reserves : Float → Reserves) (size bound : Float) (now : Int)
    (executed : Outcome (Execution × Pool)) : Prop where
  /-- A success has the terms of the quote, and its marginal price unless the
  peg moved. -/
  success : ∀ execution after, executed = .ok (execution, after) →
    ∃ quote, quoted = .ok quote ∧ execution.amount = quote.amount ∧ execution.fee = quote.fee ∧
      ¬ violates quote.amount ∧
      (execution.peg.isMoved = false →
        execution.markPrice = quote.markPrice ∧ after.markPrice = quote.markPrice)
  /-- A trade that cannot be quoted fails like its quote. -/
  unquoted : ∀ fault, quoted = .error fault → executed = .error fault
  /-- A quote beyond the bound is refused with the amount of the quote. -/
  refused : ∀ quote, quoted = .ok quote → violates quote.amount →
    executed = .error (.slippageExceeded quote.amount bound)
  /-- A quote within the bound fails only for a loss, or for want of an
  invariant with the peg moved. -/
  failure : ∀ quote fault, quoted = .ok quote → ¬ violates quote.amount →
    0 < quote.amount / size → executed = .error fault →
      (∃ previous current, fault = .lossDetected previous current) ∨
        p.curve.invariant (State.advanceOracle
          { p.state with reserves := reserves quote.amount } now).candidateReserves = .error fault

/-- With the peg unmoved, the marginal price after an update is that of its
reserves. -/
theorem markPrice_of_updates {p : Pool} {s s' : State} {tradePrice : Option Float} {now : Int}
    {move : PegMove} (h : p.curve.Updates s tradePrice none now move s')
    (hm : move.isMoved = false) :
    p.curve.markPriceAfter s.reserves s.priceScale = .ok { p with state := s' }.markPrice := by
  obtain ⟨oracle, time, ho⟩ := s.advanceOracle_frame now
  cases h with
  | unchanged found | discarded found =>
    refine Outcome.bind_eq_ok.mpr ⟨_, found.invariant, ?_⟩
    rw [ho]
    rfl
  | moved => cases hm

/-- An update with a positive price, after reserves whose invariant is known to
exist, fails for a loss or for want of an invariant with the peg moved. -/
theorem fault_of_update {c : Curve} {s : State} {price d : Float} {now : Int} {fault : Fault}
    (hd : c.invariant s.scaledReserves = .ok d) (hp : 0 < price)
    (h : c.update s (some price) none now = .error fault) :
    (∃ previous current, fault = .lossDetected previous current) ∨
      c.invariant (s.advanceOracle now).candidateReserves = .error fault := by
  rcases Curve.error_of_update h with h | ⟨e, -, h | h | h⟩
  · rw [Curve.unadjustedInvariant, hd] at h
    cases h
  · rw [Curve.lastPriceAfter, if_pos hp] at h
    cases h
  · obtain ⟨-, -, hl⟩ := State.profitAt_eq_error.mp h
    exact .inl ⟨_, _, hl⟩
  · exact .inr h

/-- A trade follows its quote if the quote's marginal price is that of the
reserves that the trade writes. -/
theorem follows_trade (p : Pool) {quoted : Outcome Quote} {violates : Float → Prop}
    [DecidablePred violates] {reserves : Float → Reserves} (size bound : Float) (now : Int)
    (hq : ∀ quote, quoted = .ok quote →
      p.curve.markPriceAfter (reserves quote.amount) p.state.priceScale = .ok quote.markPrice) :
    p.Follows quoted violates reserves size bound now
      (p.trade quoted violates reserves size bound now) := by
  refine ⟨fun execution after h => ?_, fun fault h => ?_, fun quote h hv => ?_,
    fun quote fault h hv hp hf => ?_⟩
  · obtain ⟨quote, state, hquote, hv, hu, rfl, he⟩ := trade_eq_ok h
    rw [he]
    refine ⟨quote, hquote, rfl, rfl, hv, fun hm => ?_⟩
    -- both invariants are solved for the same scaled reserves
    have hmark := markPrice_of_updates (Curve.updates_of_update hu) hm
    have hsame := Except.ok.inj (hmark.symm.trans (hq quote hquote))
    exact ⟨hsame, hsame⟩
  · rw [trade, h]
    rfl
  · rw [trade, h]
    exact if_pos hv
  · obtain ⟨d, hd, -⟩ := Outcome.bind_eq_ok.mp (hq quote h)
    rw [trade, h] at hf
    change (if _ then _ else _) = _ at hf
    rw [if_neg hv, commit] at hf
    rcases Outcome.bind_eq_error.mp hf with hf | ⟨_, -, hf⟩
    · exact fault_of_update hd hp hf
    · cases hf

/-- Execution follows the quote, for sales and purchases of any size, at any
bound and any time. -/
theorem execution_follows_quote (p : Pool) (size bound : Float) (now : Int) :
    p.Follows (p.quoteSale size) (· < bound) (p.soldReserves size) size bound now
        (p.sellAt size bound now) ∧
      p.Follows (p.quotePurchase size) (· > bound) (p.boughtReserves size) size bound now
        (p.buyAt size bound now) := by
  rw [sellAt_eq_trade, buyAt_eq_trade]
  constructor
  · exact p.follows_trade size bound now fun _ => markPrice_of_quoteSale
  · exact p.follows_trade size bound now fun _ => markPrice_of_quotePurchase

/-- A purchase that succeeds, on the terms of its quote. -/
theorem execution_follows_quote_even :
    ∃ execution after quote, even.buyAt 1 2 0 = .ok (execution, after) ∧
      even.quotePurchase 1 = .ok quote ∧ execution.amount = quote.amount ∧
      execution.fee = quote.fee ∧ ¬ quote.amount > 2 := by
  have h : (even.buyAt 1 2 0).isOk = true := by decide +kernel
  cases hb : even.buyAt 1 2 0 with
  | error fault =>
    rw [hb] at h
    cases h
  | ok result =>
    obtain ⟨quote, hq, ha, hf, hv, -⟩ :=
      (execution_follows_quote even 1 2 0).2.success result.1 result.2 hb
    exact ⟨result.1, result.2, quote, rfl, hq, ha, hf, hv⟩

end Pool

end VirtualMarket
