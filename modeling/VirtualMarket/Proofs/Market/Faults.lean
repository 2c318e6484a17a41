/-
VirtualMarket.Proofs.Market.Faults — how a market with a tested curve fails.

The constants of a curve are tested when a market is set up, and no operation
changes them.  The solvers guard the same constants with the same bands, so their
guards let them pass at every later solve, and what a quote, an update or a
valuation can still fail with lies in the reserves.  A bound that no finite
amount exceeds never refuses a purchase: an amount that had overflowed would have
left reserves without an invariant, and the quote would have failed.
-/
import VirtualMarket.Account.Maker
import VirtualMarket.Proofs.Double.Sum
import VirtualMarket.Proofs.Market.Execution

namespace VirtualMarket

open Outcome Double

/-! ## Kinds of faults -/

/-- The faults that tests of settings are there to rule out: settings or snapshots
that are refused, assets that do not exist, and constants outside their bands. -/
def Fault.RuledOut : Fault → Prop
  | .invalidParameter _ => True
  | .invalidSnapshot _ => True
  | .sameAsset => True
  | .indexOutOfRange _ => True
  | .unsafeParameter quantity _ => quantity = .amplification ∨ quantity = .gamma
  | _ => False

/-- A trade that its bound refuses. -/
def Fault.IsSlippage : Fault → Prop
  | .slippageExceeded .. => True
  | _ => False

/-- The faults that trading without bounds can end with. -/
def Fault.OfTrading (fault : Fault) : Prop :=
  ¬ fault.RuledOut ∧ ¬ fault.IsSlippage

theorem Fault.OfSearch.ofTrading {fault : Fault} (h : fault.OfSearch) : fault.OfTrading := by
  cases fault with
  | unsafeParameter quantity value => exact ⟨not_or.mpr h, id⟩
  | unsafeIntermediate | didNotConverge => exact ⟨id, id⟩
  | _ => cases h

/-! ## The curve -/

namespace Curve

variable {c : Curve} {P : Fault → Prop}

theorem validate_eq_ok :
    c.validate = .ok () ↔ Band.amplification.contains c.amplification = true ∧
      Band.gamma.contains c.gamma = true ∧ 0 ≤ c.feeRate ∧ c.feeRate < 1 := by
  unfold validate
  split
  · rename_i ha
    exact iff_of_false nofun fun h => by simp [h.1] at ha
  · rename_i ha
    split
    · rename_i hg
      exact iff_of_false nofun fun h => by simp [h.2.1] at hg
    · rename_i hg
      split
      · rename_i hf
        exact iff_of_false nofun fun h => by simp [h.2.2] at hf
      · rename_i hf
        exact iff_of_true rfl ⟨by simpa using ha, by simpa using hg, by simpa using hf⟩

/-- What has been tested at the start passes the guards of the solvers. -/
theorem guarded_of_validate (h : c.validate = .ok ()) : c.guarded = .ok () := by
  obtain ⟨ha, hg, -⟩ := validate_eq_ok.mp h
  exact Shape.guarded_eq_ok.mpr ⟨ha, hg⟩

section

variable (hc : c.guarded = .ok ())

include hc

theorem faultsIn_invariant_tested (x : Reserves) : FaultsIn Fault.OfTrading (c.invariant x) :=
  Shape.faultsIn_invariant_of (hc ▸ .ok ()) (fun _ => Fault.OfSearch.ofTrading) x

theorem faultsIn_reserve_tested (x : Reserves) (d : Float) (asset : Asset) :
    FaultsIn Fault.OfTrading (c.reserve x d asset) :=
  Shape.faultsIn_reserve_of (hc ▸ .ok ()) (fun _ => Fault.OfSearch.ofTrading) x d asset

theorem faultsIn_markPriceAfter (after : Reserves) (priceScale : Float) :
    FaultsIn Fault.OfTrading (c.markPriceAfter after priceScale) :=
  .bind (faultsIn_invariant_tested hc _) fun _ => .ok _

end

/-! ## Quotes -/

/-- Between two assets that exist and differ only the amount can be refused. -/
theorem faultsIn_exchangePair (sale : Bool) (amount : Float) :
    FaultsIn Fault.OfTrading
      (if sale then exchangePair 1 0 amount else exchangePair 0 1 amount) := by
  have refuses (pair : Asset × Asset) : FaultsIn Fault.OfTrading
      (if amount > 0 then .ok pair else .error (.nonPositiveAmount amount)) := by
    split
    · exact .ok pair
    · exact .error ⟨id, id⟩
  cases sale with
  | true => exact refuses (.base, .quote)
  | false => exact refuses (.quote, .base)

theorem faultsIn_quoteOutput (hc : c.guarded = .ok ()) (amount : Float) (reserves : Reserves)
    (d priceScale : Float) :
    FaultsIn Fault.OfTrading (c.quoteOutput 1 0 amount reserves d priceScale) := by
  refine .bind (faultsIn_exchangePair true amount) fun pair => ?_
  refine .bind (faultsIn_reserve_tested hc _ _ _) fun left => ?_
  exact .bind (faultsIn_markPriceAfter hc _ _) fun price => .ok _

theorem faultsIn_quoteInput (hc : c.guarded = .ok ()) (amount : Float) (reserves : Reserves)
    (d priceScale : Float) :
    FaultsIn Fault.OfTrading (c.quoteInput 0 1 amount reserves d priceScale) := by
  refine .bind (faultsIn_exchangePair false amount) fun pair => ?_
  refine .bind (faultsIn_reserve_tested hc _ _ _) fun needed => ?_
  exact .bind (faultsIn_markPriceAfter hc _ _) fun price => .ok _

/-! ## Updates -/

theorem faultsIn_lastPriceAfter (hr : ∀ x d asset, FaultsIn P (c.reserve x d asset)) (x : Reserves)
    (d priceScale : Float) (tradePrice : Option Float) :
    FaultsIn P (c.lastPriceAfter x d priceScale tradePrice) := by
  have hprobe : FaultsIn P (c.probePrice x d priceScale) := .bind (hr _ d .base) fun _ => .ok _
  unfold lastPriceAfter
  split
  · split
    · exact .ok _
    · exact hprobe
  · exact hprobe

theorem faultsIn_update (hc : c.guarded = .ok ()) (s : State) (tradePrice : Option Float)
    (now : Int) : FaultsIn Fault.OfTrading (c.update s tradePrice none now) := by
  intro fault h
  rcases error_of_update h with h | ⟨d, -, h | h | h⟩
  · exact faultsIn_invariant_tested hc _ fault h
  · exact faultsIn_lastPriceAfter (faultsIn_reserve_tested hc) _ _ _ _ fault h
  · obtain ⟨-, -, rfl⟩ := State.profitAt_eq_error.mp h
    exact ⟨id, id⟩
  · exact faultsIn_invariant_tested hc _ fault h

/-! ## Valuations -/

theorem faultsIn_closePosition (hc : c.guarded = .ok ()) (p : Position) (reserves : Reserves)
    (d priceScale : Float) :
    FaultsIn Fault.OfTrading (c.closePosition p reserves d priceScale) := by
  unfold closePosition
  split
  · exact .ok _
  · split
    · exact .bind (faultsIn_quoteOutput hc _ _ _ _) fun quote => .ok _
    · split
      · split
        · exact .error ⟨id, id⟩
        · exact .bind (faultsIn_quoteInput hc _ _ _ _) fun quote => .ok _
      · exact .ok _

theorem faultsIn_makerShare (s : State) (tokens : Float) (b : Basis) :
    FaultsIn Fault.OfTrading (s.makerShare tokens b) := by
  unfold State.makerShare
  split_ifs
  · exact .error ⟨id, id⟩
  · exact .ok _
  · exact .error ⟨id, id⟩
  · exact .error ⟨id, id⟩
  · exact .ok _

theorem faultsIn_makerValue (hc : c.guarded = .ok ()) (s : State) (tokens : Float) (b : Basis) :
    FaultsIn Fault.OfTrading (c.makerValue s tokens b) := by
  refine .bind (faultsIn_makerShare s tokens b) fun share => ?_
  exact .bind (faultsIn_closePosition hc _ _ _ _) fun closing => .ok _

end Curve

/-! ## Trades -/

namespace Pool

variable {p after : Pool} {size bound : Float} {now : Int} {execution : Execution}

/-- A trade fails like its quote, at its bound, or like its update. -/
theorem faultsIn_trade {P : Fault → Prop} (hc : p.curve.guarded = .ok ())
    (hP : ∀ fault, fault.OfTrading → P fault) {quoted : Outcome Quote} {violates : Float → Prop}
    [DecidablePred violates] {reserves : Float → Reserves} (hq : FaultsIn Fault.OfTrading quoted)
    (hv : ∀ quote, quoted = .ok quote → violates quote.amount →
      P (.slippageExceeded quote.amount bound)) :
    FaultsIn P (p.trade quoted violates reserves size bound now) := by
  refine .bind_found (.mono hP hq) fun quote hquote => ?_
  split
  · rename_i h
    exact .error (hv quote hquote h)
  · exact .bind (.mono hP (Curve.faultsIn_update hc _ _ _)) fun _ => .ok _

/-- A sale may also be refused by its bound. -/
theorem faultsIn_sell (hc : p.curve.guarded = .ok ()) :
    FaultsIn (¬ ·.RuledOut) (p.sell size bound) := by
  rw [sell, sellAt_eq_trade]
  exact faultsIn_trade hc (fun _ h => h.1) (Curve.faultsIn_quoteOutput hc _ _ _ _)
    fun _ _ _ => id

/-- The amount of a purchase that can be quoted is not above the largest finite
double: the quote has found an invariant of reserves that hold it. -/
theorem not_lt_amount_of_quotePurchase {quote : Quote} (h : p.quotePurchase size = .ok quote) :
    ¬ Decimal.largestFinite < quote.amount := by
  obtain ⟨d, hd, -⟩ := Outcome.bind_eq_ok.mp (markPrice_of_quotePurchase h)
  obtain ⟨hq, -⟩ := Shape.positive_of_invariant hd
  exact hq.not_largestFinite_lt

/-- A purchase without a bound is not refused for its amount. -/
theorem faultsIn_buy (hc : p.curve.guarded = .ok ()) :
    FaultsIn Fault.OfTrading (p.buy size Decimal.largestFinite) := by
  rw [buy, buyAt_eq_trade]
  refine faultsIn_trade hc (fun _ => id) (Curve.faultsIn_quoteInput hc _ _ _ _) fun quote hq h => ?_
  exact absurd h (not_lt_amount_of_quotePurchase hq)

/-- Trades leave the curve of a pool. -/
theorem curve_of_trade {quoted : Outcome Quote} {violates : Float → Prop}
    [DecidablePred violates] {reserves : Float → Reserves}
    (h : p.trade quoted violates reserves size bound now = .ok (execution, after)) :
    after.curve = p.curve := by
  obtain ⟨-, -, -, -, -, rfl, -⟩ := trade_eq_ok h
  rfl

end Pool

end VirtualMarket
