/-
VirtualMarket.Proofs.Market.Floor — how far the virtual price can fall.

An update compares the virtual price with the one before and fails if it fell.
A NaN would pass that comparison, so the first part shows that none can arise:
under the root stands a product of a positive finite double and one without a
minus sign.  A move of the peg skips the comparison; it has a test of its own,
against one and against the profit counter.  Together they give a floor that
no run goes below.
-/
import VirtualMarket.Proofs.Market.Validity

namespace VirtualMarket

open Double

/-! ## No NaN among virtual prices -/

/-- A virtual price is no NaN and has no minus sign. -/
theorem unsigned_virtualPriceAt {d priceScale totalSupply : Float} (hd : Positive d)
    (hh : Positive (d / 2)) (hs : Positive priceScale) (ht : Positive totalSupply) :
    Unsigned (virtualPriceAt d priceScale totalSupply) := by
  have hp : Unsigned (2 * priceScale) := positive_two.mul_unsigned hs.unsigned
  have hm : Unsigned (d / 2 * (d / (2 * priceScale))) := hh.mul_unsigned (hd.div_unsigned hp)
  exact hm.sqrt.div_positive ht

theorem keepsProfit_iff {candidate profit : Float} :
    keepsProfit candidate profit = true ↔ 1 < candidate ∧ profit < 2 * candidate - 1 := by
  simp [keepsProfit]

/-! ## One change -/

/-- What a change does to the virtual price. -/
structure Change.KeepsFloor (u : Change) : Prop where
  /-- Without a move the virtual price does not fall. -/
  settled : 0 < u.before.virtualPrice → u.move.isMoved = false →
    u.before.virtualPrice ≤ u.after.virtualPrice
  /-- A move keeps more than half of the profit. -/
  moved : u.move.isMoved = true →
    1 < u.after.virtualPrice ∧ u.after.profit < 2 * u.after.virtualPrice - 1
  /-- Only a move lets the virtual price fall. -/
  fall : u.after.virtualPrice < u.before.virtualPrice → u.move.isMoved = true
  /-- A market without a virtual price starts at one at least. -/
  start : ¬ 0 < u.before.virtualPrice → 1 ≤ u.after.virtualPrice

/-- An update of a state with a positive price scale, supply and virtual price
that does not move the peg finds a virtual price that has not fallen. -/
theorem Curve.Finds.le_virtualPrice {c : Curve} {s : State} {tradePrice supplied : Option Float}
    {d lastPrice virtualPrice profit : Float}
    (h : c.Finds s tradePrice supplied d lastPrice virtualPrice profit)
    (hs : Positive s.priceScale) (ht : Positive s.totalSupply) :
    (0 < s.virtualPrice → s.virtualPrice ≤ virtualPrice) ∧
      (¬ 0 < s.virtualPrice → 1 ≤ virtualPrice) := by
  obtain ⟨hd, hh, -⟩ := positive_of_unadjusted h.invariant
  rcases State.profitAt_eq_ok h.profit with ⟨hv, rfl, hl⟩ | ⟨hv, rfl, -⟩
  · have hnan := (unsigned_virtualPriceAt hd hh hs ht).isNaN
    exact ⟨fun _ => Double.le_of_not_lt hnan (lt_iff.mp hv).2.1 hl, fun h0 => absurd hv h0⟩
  · exact ⟨fun h0 => absurd h0 hv, fun _ => Double.le_refl rfl⟩

theorem Curve.Updates.virtualPrice {c : Curve} {s s' : State} {tradePrice supplied : Option Float}
    {now : Int} {move : PegMove} (h : c.Updates s tradePrice supplied now move s')
    (hs : Positive s.priceScale) (ht : Positive s.totalSupply) :
    (move.isMoved = true ∧ 1 < s'.virtualPrice ∧ s'.profit < 2 * s'.virtualPrice - 1) ∨
      (move.isMoved = false ∧ (0 < s.virtualPrice → s.virtualPrice ≤ s'.virtualPrice) ∧
        (¬ 0 < s.virtualPrice → 1 ≤ s'.virtualPrice)) := by
  cases h with
  | unchanged found | discarded found => exact .inr ⟨rfl, found.le_virtualPrice hs ht⟩
  | moved found wants solved keeps => exact .inl ⟨rfl, keepsProfit_iff.mp keeps⟩

theorem Change.Sound.keepsFloor {c : Curve} {u : Change} (h : u.Sound c) (hv : u.before.Valid) :
    u.KeepsFloor := by
  obtain ⟨-, -, -, hs, ht, -⟩ := State.valid_iff.mp hv
  obtain ⟨⟨tradePrice, now, hu⟩, -⟩ := h
  rcases hu.virtualPrice hs ht with ⟨hm, h1, hp⟩ | ⟨hm, hle, hone⟩
  · exact ⟨fun _ hn => by simp [hm] at hn, fun _ => ⟨h1, hp⟩, fun _ => hm,
      fun _ => Double.le_of_lt h1⟩
  · refine ⟨fun h0 _ => hle h0, fun hn => by simp [hm] at hn, fun hlt => ?_, hone⟩
    -- a fall from a positive value contradicts `hle`, one from elsewhere `hone`
    have h0 : ¬ 0 < u.before.virtualPrice := fun h0 =>
      Double.lt_irrefl (Double.lt_of_lt_of_le hlt (hle h0))
    have h1 : 1 < u.before.virtualPrice := Double.lt_of_le_of_lt (hone h0) hlt
    exact absurd (Double.lt_of_lt_of_le (by decide) (Double.le_of_lt h1)) h0

/-! ## Runs -/

namespace Pool

/-- A floor that is positive and at most one is kept by a change. -/
theorem le_virtualPrice_run {p : Pool} {floor : Float} (hp : p.state.Valid) (h0 : 0 < floor)
    (h1 : floor ≤ 1) (hf : floor ≤ p.state.virtualPrice) (ops : List Operation) :
    floor ≤ (p.run ops).2.state.virtualPrice := by
  refine (run_induction (P := fun s => s.Valid ∧ floor ≤ s.virtualPrice) ⟨hp, hf⟩ ?_ ops).1.2
  rintro u hu ⟨hv, hle⟩
  refine ⟨hu.valid hv, ?_⟩
  have hk := hu.keepsFloor hv
  cases hm : u.move.isMoved with
  | true => exact Double.le_trans h1 (Double.le_of_lt (hk.moved hm).1)
  | false => exact Double.le_trans hle (hk.settled (Double.lt_of_lt_of_le h0 hle) hm)

/-- The first change of a run brings the virtual price to one at least, if it was not
positive before. -/
theorem one_le_virtualPrice_run {p : Pool} (hp : p.state.Valid)
    (h0 : ¬ 0 < p.state.virtualPrice) {ops : List Operation} (h : p.history ops ≠ []) :
    1 ≤ (p.run ops).2.state.virtualPrice := by
  -- until the first change the pool is as it was, and after it the floor is one
  induction ops generalizing p with
  | nil => exact absurd rfl h
  | cons op rest ih =>
    rw [history] at h
    rw [run_cons]
    rcases p.apply_cases op with ⟨hc, ha⟩ | ⟨u, hc, -, hb, hu, ha⟩
    · rw [hc, ha] at h
      rw [ha]
      exact ih hp h0 h
    · rw [ha]
      rw [← hb] at hp h0
      have h1 := (hu.keepsFloor hp).start h0
      exact le_virtualPrice_run (p := { p with state := u.after }) (hu.valid hp)
        (by decide : (0 : Float) < 1) (Double.le_refl rfl) h1 rest

/-- The virtual price falls by a move of the peg only, and only so far that
more than half of the profit is left.  Over a run it stays above its first
value or above one, whichever is less; a market that has none starts at one. -/
theorem virtualPrice_floor {p : Pool} (hp : p.state.Valid) (ops : List Operation) :
    (∀ u ∈ p.history ops, u.KeepsFloor) ∧
      (0 < p.state.virtualPrice →
        min p.state.virtualPrice 1 ≤ (p.run ops).2.state.virtualPrice ∧
          (p.run ops).2.state.virtualPrice.isNaN = false) ∧
      (¬ 0 < p.state.virtualPrice → p.history ops ≠ [] →
        1 ≤ (p.run ops).2.state.virtualPrice) := by
  refine ⟨fun u hu => ?_, fun h0 => ?_, fun h0 h => one_le_virtualPrice_run hp h0 h⟩
  · exact (sound_of_mem_history hu).keepsFloor ((valid_run hp ops).2 u hu)
  · have hv := (lt_iff.mp h0).2.1
    have hone : (1 : Float) ≤ 1 := Double.le_refl rfl
    have h : min p.state.virtualPrice 1 ≤ (p.run ops).2.state.virtualPrice := by
      rcases Double.min_cases p.state.virtualPrice 1 with ⟨hm, hle⟩ | ⟨hm, hn⟩ <;> rw [hm]
      · exact le_virtualPrice_run hp h0 hle (Double.le_refl hv) ops
      · have hle := Double.le_of_not_le hv rfl hn
        exact le_virtualPrice_run hp (by decide) hone hle ops
    exact ⟨h, (le_iff.mp h).2.1⟩

/-- A pool that has no virtual price yet. -/
def unpriced : Pool :=
  { even with state := { even.state with virtualPrice := 0 } }

/-- One update, with a virtual price before it and without. -/
theorem virtualPrice_floor_even :
    let ops : List Operation := [.update (some 1) (some 2000) 0]
    min even.state.virtualPrice 1 ≤ (even.run ops).2.state.virtualPrice ∧
      1 ≤ (unpriced.run ops).2.state.virtualPrice :=
  ⟨((virtualPrice_floor built_even.valid _).2.1 (by decide)).1,
    (virtualPrice_floor (State.validate_eq_ok.mp rfl : unpriced.state.Valid) _).2.2 (by decide)
      nofun⟩

end Pool

end VirtualMarket
