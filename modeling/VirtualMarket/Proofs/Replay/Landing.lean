/-
VirtualMarket.Proofs.Replay.Landing — where a sized trade lands.

Sizing has only quotes to go by.  Execution follows the quote, and to the last
bit, so the price that a search has seen is the one that its trade leaves,
unless the peg moves: on the far side of the target and within the tolerance.
-/
import VirtualMarket.Proofs.Market.Execution
import VirtualMarket.Proofs.Replay.Report
import VirtualMarket.Proofs.Sizing.Search

namespace VirtualMarket

variable {s : Sizing} {p after : Pool} {execution : Execution} {target size bound : Float}

/-! ## Executions of quotes -/

namespace Pool

/-- A trade that does not move the peg leaves the price of its quote. -/
theorem markPrice_of_trade {quoted : Outcome Quote} {violates : Float → Prop}
    [DecidablePred violates] {reserves : Float → Reserves} {now : Int} {quote : Quote}
    (hr : ∀ q, quoted = .ok q →
      p.curve.markPriceAfter (reserves q.amount) p.state.priceScale = .ok q.markPrice)
    (hq : quoted = .ok quote)
    (h : p.trade quoted violates reserves size bound now = .ok (execution, after))
    (hm : execution.peg.isMoved = false) : after.markPrice = quote.markPrice := by
  obtain ⟨quote', hq', -, -, -, hmark⟩ :=
    (p.follows_trade size bound now hr).success execution after h
  obtain rfl : quote = quote' := Except.ok.inj (hq.symm.trans hq')
  exact (hmark hm).2

theorem markPrice_of_buy {quote : Quote} (hq : p.quotePurchase size = .ok quote)
    (h : p.buy size bound = .ok (execution, after)) (hm : execution.peg.isMoved = false) :
    after.markPrice = quote.markPrice := by
  rw [buy, buyAt_eq_trade] at h
  exact markPrice_of_trade (fun _ => markPrice_of_quotePurchase) hq h hm

theorem markPrice_of_sell {quote : Quote} (hq : p.quoteSale size = .ok quote)
    (h : p.sell size bound = .ok (execution, after)) (hm : execution.peg.isMoved = false) :
    after.markPrice = quote.markPrice := by
  rw [sell, sellAt_eq_trade] at h
  exact markPrice_of_trade (fun _ => markPrice_of_quoteSale) hq h hm

end Pool

/-! ## Signs of sizes -/

namespace Sizing.Found

/-- A positive size is that of a purchase, from below the target. -/
theorem lands_of_buy (h : s.Found p.venue target size) (hpos : 0 < size)
    (hb : p.buy size bound = .ok (execution, after)) (hm : execution.peg.isMoved = false) :
    p.markPrice < target ∧ s.LandsAbove target after.markPrice := by
  cases h with
  | purchase below positive quoted lands =>
    rw [Pool.markPrice_of_buy quoted hb hm]
    exact ⟨below, lands⟩
  | sale above positive => exact absurd (Double.neg_lt_zero positive) (Double.lt_asymm hpos)
  | nothing => exact absurd hpos Double.lt_irrefl

/-- A negative size is that of a sale, from above the target. -/
theorem lands_of_sell (h : s.Found p.venue target size) (hneg : size < 0)
    (hb : p.sell size.abs bound = .ok (execution, after)) (hm : execution.peg.isMoved = false) :
    target < p.markPrice ∧ s.LandsBelow target after.markPrice := by
  cases h with
  | purchase below positive => exact absurd positive (Double.lt_asymm hneg)
  | sale above positive quoted lands =>
    rw [Double.abs_neg_of_pos positive] at hb
    rw [Pool.markPrice_of_sell quoted hb hm]
    exact ⟨above, lands⟩
  | nothing => exact absurd hneg Double.lt_irrefl

/-- A void size is that of a market at its target. -/
theorem rests (h : s.Found p.venue target size) (h0 : (size == 0) = true) :
    ¬ p.markPrice < target ∧ ¬ target < p.markPrice := by
  cases h with
  | purchase below positive => exact absurd h0 (Double.not_beq_of_lt (.inr positive))
  | sale above positive =>
    exact absurd h0 (Double.not_beq_of_lt (.inl (Double.neg_lt_zero positive)))
  | nothing notBelow notAbove => exact ⟨notBelow, notAbove⟩

/-- A size that is neither positive nor void is negative. -/
theorem neg_of_not_pos (h : s.Found p.venue target size) (hpos : ¬ 0 < size)
    (h0 : (size == 0) = false) : size < 0 := by
  cases h with
  | purchase below positive => exact absurd positive hpos
  | sale above positive => exact Double.neg_lt_zero positive
  | nothing => cases h0

end Sizing.Found

/-! ## Deals -/

/-- A deal lands on the far side of its target from where it began. -/
theorem Replay.Deal.Made.lands {d : Replay.Deal} (h : d.Made s) (hs : s.validate = .ok ())
    (hm : d.execution.peg.isMoved = false) :
    (d.before.markPrice < d.target ∧ s.LandsAbove d.target d.after.markPrice) ∨
      (d.target < d.before.markPrice ∧ s.LandsBelow d.target d.after.markPrice) := by
  have hfound := Sizing.found_of_sizeToTarget hs h.sized
  have hexecuted := h.executed
  unfold Replay.execute at hexecuted
  split at hexecuted
  · rename_i hpos
    exact .inl (hfound.lands_of_buy hpos hexecuted hm)
  · rename_i hpos
    exact .inr (hfound.lands_of_sell (hfound.neg_of_not_pos hpos h.notVoid) hexecuted hm)

/-- With settings that pass their test, a trade of the size that sizing returns
lands on the far side of its target and within the tolerance, unless it moves
the peg; and where no size is returned the price is at the target.  So do all
the deals of a replay, which are what leads from its first pool to its last. -/
theorem Sizing.sized_trade_lands (hs : s.validate = .ok ()) :
    (∀ p target size, s.sizeToTarget (Pool.venue p) target = .ok size →
      (0 < size → ∀ execution after, p.buy size Decimal.largestFinite = .ok (execution, after) →
        execution.peg.isMoved = false → s.LandsAbove target after.markPrice) ∧
      (size < 0 → ∀ execution after, p.sell size.abs 0 = .ok (execution, after) →
        execution.peg.isMoved = false → s.LandsBelow target after.markPrice) ∧
      ((size == 0) = true → ¬ p.markPrice < target ∧ ¬ target < p.markPrice)) ∧
    ∀ r : Replay, r.sizing = s → ∀ candles,
      Replay.executeAll r.pool ((r.trades candles).map Replay.Deal.size)
          = .ok (r.run candles).2 ∧
        ∀ d ∈ r.trades candles, (∃ c ∈ candles, d.target ∈ c.targets r.plan.closeOnly) ∧
          (d.execution.peg.isMoved = false →
            (d.before.markPrice < d.target ∧ s.LandsAbove d.target d.after.markPrice) ∨
              (d.target < d.before.markPrice ∧ s.LandsBelow d.target d.after.markPrice)) := by
  constructor
  · intro p target size h
    have hfound := found_of_sizeToTarget hs h
    refine ⟨fun hpos execution after hb hm => ?_, fun hneg execution after hb hm => ?_,
      hfound.rests⟩
    · exact (hfound.lands_of_buy hpos hb hm).2
    · exact (hfound.lands_of_sell hneg hb hm).2
  · rintro r rfl candles
    refine ⟨(r.adds_replayFrom 0 candles { pool := r.pool }).pool, fun d hd => ?_⟩
    obtain ⟨hmade, htarget⟩ := Replay.made_of_mem_trades hd
    exact ⟨htarget, hmade.lands hs⟩

/-- A target just above its price: a lot of five lifts an even market past it. -/
theorem Sizing.sized_trade_lands_even :
    let p : Pool := { Pool.even with tracking := { tradeInterval := 0 } }
    let s : Sizing := { lot := 5, maxSteps := 3 }
    ∃ size execution after, s.sizeToTarget p.venue 1.0001 = .ok size ∧
      p.buy size Decimal.largestFinite = .ok (execution, after) ∧
      s.LandsAbove 1.0001 after.markPrice := by
  intro p s
  obtain ⟨⟨⟩, hs⟩ := Outcome.isOk_iff.mp (by decide +kernel : s.validate.isOk = true)
  have h : (Replay.dealTo s p 1.0001).toOption.any (fun deal =>
      deal.any fun d => 0 < d.size && !d.execution.peg.isMoved) = true := by
    decide +kernel
  cases hd : Replay.dealTo s p 1.0001 with
  | error fault =>
    rw [hd] at h
    cases h
  | ok deal =>
    rw [hd] at h
    cases deal with
    | none => cases h
    | some d =>
      obtain ⟨hmade, hbefore, htarget⟩ := Replay.made_of_dealTo hd
      obtain ⟨hpos, hm⟩ : 0 < d.size ∧ d.execution.peg.isMoved = false := by
        simpa [Except.toOption] using h
      have hsize := hmade.sized
      have hb := hmade.executed
      rw [hbefore] at hsize hb
      rw [htarget] at hsize
      rw [Replay.execute, if_pos hpos] at hb
      exact ⟨_, _, _, hsize, hb, ((sized_trade_lands hs).1 p 1.0001 _ hsize).1 hpos _ _ hb hm⟩

end VirtualMarket
