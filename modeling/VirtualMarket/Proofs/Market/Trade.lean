/-
VirtualMarket.Proofs.Market.Trade — what a purchase and a sale have in common.

Both ask for a quote, hold its amount against a bound, write new reserves and
let an update do the rest.  They differ in the quote, in the bound and in the
reserves they write, and nowhere else; what is proved of the common form holds
for both.
-/
import VirtualMarket.Market.Pool
import VirtualMarket.Proofs.Market.Update

namespace VirtualMarket.Pool

/-! ## The common form -/

/-- The reserves after a sale. -/
def soldReserves (p : Pool) (size amount : Float) : Reserves :=
  (p.state.reserves.deposit .base size).withdraw .quote amount

/-- The reserves after a purchase. -/
def boughtReserves (p : Pool) (size amount : Float) : Reserves :=
  (p.state.reserves.deposit .quote amount).withdraw .base size

/-- The common form of a purchase and a sale: a quote, a bound that its amount
must not violate, and an update on other reserves. -/
def trade (p : Pool) (quoted : Outcome Quote) (violates : Float → Prop) [DecidablePred violates]
    (reserves : Float → Reserves) (size bound : Float) (now : Int) :
    Outcome (Execution × Pool) := do
  let quote ← quoted
  if violates quote.amount then .error (.slippageExceeded quote.amount bound)
  else
    p.commit { p.state with reserves := reserves quote.amount } quote (quote.amount / size) now

theorem sellAt_eq_trade (p : Pool) (size least : Float) (now : Int) :
    p.sellAt size least now =
      p.trade (p.quoteSale size) (· < least) (p.soldReserves size) size least now := rfl

theorem buyAt_eq_trade (p : Pool) (size most : Float) (now : Int) :
    p.buyAt size most now =
      p.trade (p.quotePurchase size) (· > most) (p.boughtReserves size) size most now := rfl

/-! ## Successful trades -/

/-- A trade that succeeds is one update of the state with other reserves, on
the terms of the quote. -/
theorem trade_eq_ok {p after : Pool} {quoted : Outcome Quote} {violates : Float → Prop}
    [DecidablePred violates] {reserves : Float → Reserves} {size bound : Float} {now : Int}
    {execution : Execution}
    (h : p.trade quoted violates reserves size bound now = .ok (execution, after)) :
    ∃ quote state, quoted = .ok quote ∧ ¬ violates quote.amount ∧
      p.curve.update { p.state with reserves := reserves quote.amount }
        (some (quote.amount / size)) none now = .ok (execution.peg, state) ∧
      after = { p with state := state } ∧
      execution = ⟨quote.amount, quote.fee, quote.amount / size, after.markPrice,
        execution.peg⟩ := by
  obtain ⟨quote, hquote, h⟩ := Outcome.bind_eq_ok.mp h
  split at h
  · cases h
  · rename_i hv
    obtain ⟨⟨peg, state⟩, hu, h⟩ := Outcome.bind_eq_ok.mp h
    cases h
    exact ⟨quote, state, hquote, hv, hu, rfl, rfl⟩

end VirtualMarket.Pool
