/-
VirtualMarket.Proofs.Market.Rest — a market that nobody trades in is at rest.

A first deposit issues as many liquidity tokens as an update will later divide
by, computed by the same expression from the same invariant.  The virtual price
of a market without trades is therefore a double over itself, which is one to
the last bit, and no profit is counted.  Without profit nothing sets the latch,
so the peg stays where it is, however far the oracle price has drifted.
-/
import VirtualMarket.Proofs.Double.Sum
import VirtualMarket.Proofs.Market.Journal
import VirtualMarket.Proofs.Market.Validity

namespace VirtualMarket

open Double

/-! ## Drift -/

/-- One state differs from another in its tracked prices and their time alone. -/
def State.Drifts (s t : State) : Prop :=
  ∃ oracle last time, t = { s with priceOracle := oracle, lastPrice := last, lastUpdate := time }

protected theorem State.Drifts.refl (s : State) : s.Drifts s :=
  ⟨_, _, _, rfl⟩

protected theorem State.Drifts.trans {s t u : State} (h : s.Drifts t) (h' : t.Drifts u) :
    s.Drifts u := by
  obtain ⟨oracle, last, time, rfl⟩ := h
  obtain ⟨oracle', last', time', rfl⟩ := h'
  exact ⟨oracle', last', time', rfl⟩

/-! ## Rest -/

/-- A state in which no trade has left a profit: its tokens are worth their
share of the invariant, which is that of its reserves. -/
structure State.AtRest (c : Curve) (s : State) : Prop where
  solved : c.invariant s.scaledReserves = .ok s.invariant
  supply : s.totalSupply = geometricMean (s.invariant / 2) (s.invariant / (2 * s.priceScale))
  positive : Positive s.totalSupply
  virtualPrice : s.virtualPrice = 1
  profit : s.profit = 1
  latch : s.latch = .settled
  cushion : ¬ s.profitCushion < 0

namespace State

variable {c : Curve} {s t : State} {tradePrice : Option Float} {now : Int}

/-- Rest does not depend on the tracked prices. -/
theorem AtRest.of_drifts (h : s.AtRest c) (hd : s.Drifts t) : t.AtRest c := by
  obtain ⟨oracle, last, time, rfl⟩ := hd
  exact ⟨h.solved, h.supply, h.positive, h.virtualPrice, h.profit, h.latch, h.cushion⟩

/-- At rest a token is worth one, exactly. -/
theorem AtRest.virtualPriceAt_eq (h : s.AtRest c) :
    virtualPriceAt s.invariant s.priceScale s.totalSupply = 1 := by
  rw [virtualPriceAt, ← h.supply]
  exact h.positive.div_self

/-- No loss, and no profit. -/
theorem AtRest.profitAt_eq (h : s.AtRest c) : s.profitAt s.invariant = .ok (1, 1) := by
  unfold profitAt
  simp only [h.virtualPriceAt_eq, h.virtualPrice, h.profit]
  rfl

/-- A cushion that is not negative is not exceeded without profit, even if it
is infinite or no number at all. -/
theorem not_exceeds_cushion {cushion : Float} (h : ¬ cushion < 0) :
    ¬ 1 + 2 * cushion < 1 * 2 - 1 := by
  intro hlt
  have hone : (1 * 2 - 1 : Float) = 1 := by rfl
  rw [hone] at hlt
  cases hn : cushion.isNaN with
  | true =>
    obtain rfl : cushion = .nan := by simpa using hn
    exact absurd hlt (by decide)
  | false =>
    have h0 : 0 ≤ 2 * cushion := positive_two.mul_nonneg (Double.le_of_not_lt hn rfl h)
    exact Double.lt_irrefl (Double.lt_of_le_of_lt (positive_one.le_add h0) hlt)

/-- At rest the peg is left alone. -/
theorem AtRest.wantsMove_eq (h : s.AtRest c) : s.wantsMove 1 1 = false := by
  rw [wantsMove, h.latch, Bool.and_eq_false_iff]
  refine .inr ?_
  simpa using not_exceeds_cushion h.cushion

/-- Closing an update at rest writes the last price and nothing else. -/
theorem AtRest.settle_eq (h : s.AtRest c) (lastPrice : Float) :
    s.settle s.invariant 1 1 lastPrice = { s with lastPrice := lastPrice } := by
  simp [settle, h.virtualPrice, h.profit, h.latch]

/-- Advancing the moving average is a drift. -/
theorem drifts_advanceOracle (s : State) (now : Int) (lastPrice : Float) :
    s.Drifts { s.advanceOracle now with lastPrice := lastPrice } := by
  obtain ⟨oracle, time, ho⟩ := s.advanceOracle_frame now
  rw [ho]
  exact ⟨_, _, _, rfl⟩

theorem AtRest.advanceOracle (h : s.AtRest c) (now : Int) : (s.advanceOracle now).AtRest c :=
  h.of_drifts (s.drifts_advanceOracle now _)

/-- A successful update at rest lets the state drift and does nothing else. -/
theorem AtRest.drifts_of_update (h : s.AtRest c) {move : PegMove}
    (hu : c.update s tradePrice none now = .ok (move, t)) : move = .unchanged ∧ s.Drifts t := by
  -- what the stages of the update find is what the state holds already
  have same {d lastPrice virtualPrice profit : Float}
      (found : c.Finds s tradePrice none d lastPrice virtualPrice profit) :
      s.invariant = d ∧ 1 = virtualPrice ∧ 1 = profit := by
    obtain rfl : s.invariant = d := Except.ok.inj (h.solved.symm.trans found.invariant)
    cases h.profitAt_eq.symm.trans found.profit
    exact ⟨rfl, rfl, rfl⟩
  have hrest := h.advanceOracle now
  cases Curve.updates_of_update hu with
  | unchanged found =>
    obtain ⟨hd, rfl, rfl⟩ := same found
    have hi : (s.advanceOracle now).invariant = s.invariant := by
      obtain ⟨oracle, time, ho⟩ := s.advanceOracle_frame now
      rw [ho]
    rw [← hd, ← hi, hrest.settle_eq]
    exact ⟨rfl, s.drifts_advanceOracle now _⟩
  | moved found wants | discarded found wants =>
    obtain ⟨-, rfl, rfl⟩ := same found
    rw [hrest.wantsMove_eq] at wants
    cases wants

/-- An update at rest with a positive price succeeds. -/
theorem AtRest.update_isOk (h : s.AtRest c) {price : Float} (hp : 0 < price) (now : Int) :
    (c.update s (some price) none now).isOk = true := by
  have hlast : c.lastPriceAfter s.scaledReserves s.invariant s.priceScale (some price) =
      .ok price := if_pos hp
  have hwants := (h.advanceOracle now).wantsMove_eq
  rw [Curve.update]
  simp only [Curve.unadjustedInvariant, h.solved, State.advanceOracle_priceScale, hlast,
    State.advanceOracle_profitAt, h.profitAt_eq, hwants, bind, Except.bind]
  rfl

end State

/-! ## Bootstrapped pools -/

/-- A tracking policy that passes its test has no negative cushion. -/
theorem Tracking.not_negative_of_validate {t : Tracking} (h : t.validate = .ok ()) :
    ¬ t.profitCushion < 0 :=
  unrefuted_iff.mp (validate_eq_ok.mp h).2.1.2

namespace Pool

/-- A first deposit is at rest. -/
theorem atRest_of_bootstrap {curve : Curve} {tracking : Tracking} {reserves : Reserves}
    {priceScale : Float} {now : Int} {p : Pool}
    (h : bootstrap curve tracking reserves priceScale now = .ok p) :
    p.state.AtRest p.curve ∧ p.state.reserves = reserves ∧ p.state.priceScale = priceScale := by
  obtain ⟨-, ht, d, hd, hv, rfl⟩ := bootstrap_eq_ok.mp h
  have hts := (State.valid_iff.mp hv).2.2.2.2.1
  exact ⟨⟨hd, rfl, hts, rfl, rfl, rfl, Tracking.not_negative_of_validate ht⟩, rfl, rfl⟩

/-! ## Runs without trades -/

/-- An update without a trade, with a price and a time; its invariant is solved. -/
def refresh (call : Option Float × Int) : Operation :=
  .update call.1 none call.2

/-- What an update of the pool comes to, in terms of the update of its state. -/
theorem apply_update (p : Pool) (tradePrice supplied : Option Float) (now : Int) :
    p.apply (.update tradePrice supplied now) =
      match p.curve.update p.state tradePrice supplied now with
      | .ok (move, s) => (.ok (.peg move), { p with state := s })
      | .error fault => (.error fault, p) := by
  simp only [apply_eq, perform, update, bind, Except.bind]
  cases p.curve.update p.state tradePrice supplied now <;> rfl

end Pool

/-- An entry of a pool at rest: what succeeds leaves the peg, what is given a
positive price succeeds, and the state drifts at most. -/
structure Entry.Rests (e : Entry) : Prop where
  unchanged : ∀ answer, e.answer = .ok answer → answer = .peg .unchanged
  succeeds : ∀ price now, e.op = .update (some price) none now → 0 < price →
    e.answer = .ok (.peg .unchanged)
  drifts : ∃ s, e.after = { e.before with state := s } ∧ e.before.state.Drifts s

namespace Pool

theorem rests_refresh {p : Pool} (h : p.state.AtRest p.curve) (call : Option Float × Int) :
    (Entry.mk p (refresh call)).Rests := by
  obtain ⟨tradePrice, now⟩ := call
  have ha := p.apply_update tradePrice none now
  cases hu : p.curve.update p.state tradePrice none now with
  | error fault =>
    rw [hu] at ha
    refine ⟨fun answer he => ?_, fun price time hop hp => ?_, p.state, congrArg Prod.snd ha, .refl _⟩
    · cases he.symm.trans (congrArg Prod.fst ha)
    · cases hop
      have hok := h.update_isOk hp now
      rw [hu] at hok
      cases hok
  | ok result =>
    obtain ⟨move, s⟩ := result
    obtain ⟨rfl, hd⟩ := h.drifts_of_update hu
    rw [hu] at ha
    refine ⟨fun answer he => ?_, fun _ _ _ _ => congrArg Prod.fst ha, s, congrArg Prod.snd ha, hd⟩
    cases he.symm.trans (congrArg Prod.fst ha)
    rfl

/-- A pool at rest stays at rest for as long as nobody trades. -/
theorem rests_run {p : Pool} (h : p.state.AtRest p.curve) (calls : List (Option Float × Int)) :
    (∀ e ∈ p.journal (calls.map refresh), e.Rests) ∧
      ∃ s, (p.run (calls.map refresh)).2 = { p with state := s } ∧ p.state.Drifts s := by
  induction calls generalizing p with
  | nil => exact ⟨by simp [journal], p.state, rfl, .refl _⟩
  | cons call calls ih =>
    have hfirst := rests_refresh h call
    obtain ⟨s, hs, hd⟩ := hfirst.drifts
    obtain ⟨hrest, t, ht, hd'⟩ := ih (p := { p with state := s }) (h.of_drifts hd)
    rw [List.map_cons, journal, run_cons, List.forall_mem_cons]
    change (p.apply (refresh call)).2 = _ at hs
    rw [hs]
    exact ⟨⟨hfirst, hrest⟩, t, ht, hd.trans hd'⟩

/-- A bootstrapped pool that nobody trades in rests.  Whatever prices and times
its updates are given, those with a positive price succeed, none that succeeds
touches the peg, and only the tracked prices and their time drift: the reserves,
the invariant, the peg and the supply are those of the deposit, virtual price
and profit are one, and the latch is not set. -/
theorem untraded_pool_rests {curve : Curve} {tracking : Tracking} {reserves : Reserves}
    {priceScale : Float} {now : Int} {p : Pool}
    (h : bootstrap curve tracking reserves priceScale now = .ok p)
    (calls : List (Option Float × Int)) :
    (∀ e ∈ p.journal (calls.map refresh), e.Rests) ∧
      ∃ s, (p.run (calls.map refresh)).2 = { p with state := s } ∧ p.state.Drifts s ∧
        s.reserves = reserves ∧ s.invariant = p.state.invariant ∧ s.priceScale = priceScale ∧
        s.totalSupply = p.state.totalSupply ∧ s.virtualPrice = 1 ∧ s.profit = 1 ∧
        s.latch = .settled := by
  obtain ⟨hrest, hr, hp⟩ := atRest_of_bootstrap h
  obtain ⟨he, s, hs, hd⟩ := rests_run hrest calls
  have hlast := hrest.of_drifts hd
  refine ⟨he, s, hs, hd, ?_⟩
  obtain ⟨oracle, last, time, rfl⟩ := hd
  exact ⟨hr, rfl, hp, rfl, hlast.virtualPrice, hlast.profit, hlast.latch⟩

/-- A deposit of a thousand of each asset: it can be made, and an update at five
times the peg, ten minutes later, leaves the peg alone. -/
theorem untraded_pool_rests_deposit :
    ∃ p s, bootstrap {} {} ⟨1000, 1000⟩ 1 0 = .ok p ∧
      (p.apply (.update (some 5) none 0)).1 = .ok (.peg .unchanged) ∧
      (p.run [.update (some 5) none 0, .update none none 600]).2 = { p with state := s } ∧
      s.reserves = ⟨1000, 1000⟩ ∧ s.priceScale = 1 ∧ s.virtualPrice = 1 ∧ s.latch = .settled := by
  obtain ⟨p, h⟩ := Outcome.isOk_iff.mp
    (by decide +kernel : (bootstrap {} {} ⟨1000, 1000⟩ 1 0).isOk = true)
  obtain ⟨he, s, hs, -, hr, -, hp, -, hv, -, hl⟩ := untraded_pool_rests h [(some 5, 0), (none, 600)]
  have hfirst := (he _ List.mem_cons_self).succeeds 5 0 rfl (by decide)
  exact ⟨p, s, h, hfirst, hs, hr, hp, hv, hl⟩

end Pool

end VirtualMarket
