/-
VirtualMarket.Proofs.Account.Maker — realizing a part of a share keeps its value.

The notional of a withdrawn share is split before the position is closed: what
is negative is realized at once, and only the rest stays open.  The two parts
meet again in the profit or loss, where they must add up to the notional, to the
last bit.  They do, because one of the parts is always zero; a zero that is
added or taken changes nothing but a negative zero, and neither the notional nor
the amount that closes the position is one.
-/
import VirtualMarket.Account.Maker
import VirtualMarket.Proofs.Market.Quote
import VirtualMarket.Proofs.Market.Validity

namespace VirtualMarket

open Double

variable {size n amount : Float}

/-! ## Both parts of a notional -/

/-- A notional without regard to the sign counts against the proceeds of a long. -/
theorem settleNotional_long (hs : 0 < size) (ha : view amount ≠ .zero .negative) :
    amount - (settleNotional size n).2 + (settleNotional size n).1 = amount - n := by
  have hflat : (size == 0) = false := by
    simpa using Double.not_beq_of_lt (.inr hs)
  by_cases hn : n < 0
  · have hsettle : settleNotional size n = (-n, 0) := by simp [settleNotional, hn, hs]
    rw [hsettle, Double.sub_zero, ← Double.sub_eq_add_neg]
  · have hsettle : settleNotional size n = (0, n) := by simp [settleNotional, hn, hflat]
    rw [hsettle]
    exact Double.add_zero fun hz => ha (zeros_of_sub hz).1

/-- The cost of a short counts against its notional. -/
theorem settleNotional_short (hs : size < 0) (hn : view n ≠ .zero .negative) :
    (settleNotional size n).2 - amount + (settleNotional size n).1 = n - amount := by
  have hlong : ¬ 0 < size := Double.lt_asymm hs
  have hflat : (size == 0) = false := by
    simpa using Double.not_beq_of_lt (.inl hs)
  by_cases hneg : n < 0
  · have hsettle : settleNotional size n = (n, 0) := by simp [settleNotional, hneg, hs, hlong]
    rw [hsettle, zero_sub_add hn]
  · have hsettle : settleNotional size n = (0, n) := by simp [settleNotional, hneg, hflat]
    rw [hsettle]
    exact Double.add_zero fun hz => hn (zeros_of_sub hz).1

/-- What a flat share keeps is its notional, but never a loss. -/
theorem settleNotional_flat (hs : (size == 0) = true) (hnan : n.isNaN = false) :
    0 + (settleNotional size n).1 = max n 0 := by
  have hmax : max n 0 = if n ≤ 0 then 0 else n := rfl
  rcases lt_trichotomy (value n) 0 with h | h | h
  · have hn : n < 0 := lt_iff.mpr ⟨hnan, rfl, h⟩
    have hlong : ¬ 0 < size := fun h => Double.not_beq_of_lt (.inr h) hs
    have hshort : ¬ size < 0 := fun h => Double.not_beq_of_lt (.inl h) hs
    have hsettle : settleNotional size n = (0, 0) := by
      simp [settleNotional, hn, hlong, hshort]
    rw [hmax, if_pos (Double.le_of_lt hn), hsettle]
    rfl
  · have hneg : ¬ n < 0 := fun hn => (lt_iff.mp hn).2.2.ne h
    have hpos : ¬ 0 < n := fun hn => (lt_iff.mp hn).2.2.ne' h
    have hle : n ≤ 0 := le_iff.mpr ⟨hnan, by rfl, h.le.trans_eq value_zero.symm⟩
    have hsettle : settleNotional size n = (0, n) := by simp [settleNotional, hneg, hpos]
    rw [hmax, if_pos hle, hsettle]
    exact (rfl : (0 : Float) + 0 = 0)
  · have hn : 0 < n := lt_iff.mpr ⟨rfl, hnan, h⟩
    have hle : ¬ n ≤ 0 := fun hle => Double.lt_irrefl (Double.lt_of_lt_of_le hn hle)
    have hsettle : settleNotional size n = (n, 0) := by
      simp [settleNotional, Double.lt_asymm hn, hn, hs]
    rw [hmax, if_neg hle, hsettle, Double.add_comm]
    exact Double.add_zero (view_ne_zero hn _)

/-! ## Closing -/

/-- What is received for base is never `-0`: a whole unit was taken from it. -/
theorem Curve.quoteOutput_amount_ne {c : Curve} {amount d priceScale : Float} {r : Reserves}
    {q : Quote} (h : c.quoteOutput 1 0 amount r d priceScale = .ok q) :
    view q.amount ≠ .zero .negative := by
  obtain ⟨⟨s, t⟩, hpair, h⟩ := Outcome.bind_eq_ok.mp h
  obtain ⟨-, ht⟩ := exchangePair_eq_ok hpair
  obtain ⟨left, -, h⟩ := Outcome.bind_eq_ok.mp h
  obtain ⟨price, -, h⟩ := Outcome.bind_eq_ok.mp h
  cases h
  cases ht
  intro hz
  have hunit : 0 < smallestUnit := by decide +kernel
  exact view_ne_zero hunit _ (zeros_of_sub (zeros_of_sub hz).1).2

/-- The value of a long is read off the sale of it. -/
theorem Curve.closing_of_long_iff {c : Curve} {p : Position} {r : Reserves} {d priceScale : Float}
    {closing : Closing} (hd : Band.invariant.low ≤ d) (hp : 0 < p.size) :
    c.closePosition p r d priceScale = .ok closing ↔
      ∃ q, c.quoteOutput 1 0 p.size r d priceScale = .ok q ∧
        closing = ⟨q.amount, q.amount - p.openNotional⟩ := by
  rw [closePosition, if_neg (by simpa using hd), if_pos hp, Outcome.bind_eq_ok]
  simp only [Except.ok.injEq, eq_comm]

/-- A short within the base reserve is valued by the purchase of it. -/
theorem Curve.closePosition_of_short {c : Curve} {p : Position} {r : Reserves}
    {d priceScale : Float} (hd : Band.invariant.low ≤ d) (hp : p.size < 0) :
    c.closePosition p r d priceScale =
      if -p.size > r.base then .error (.insufficientLiquidity (-p.size) r.base)
      else c.quoteInput 0 1 (-p.size) r d priceScale >>= fun q =>
        .ok ⟨q.amount, p.openNotional - q.amount⟩ := by
  rw [closePosition, if_neg (by simpa using hd), if_neg (Double.lt_asymm hp), if_pos hp]

/-- The value of a long that is closed. -/
theorem Curve.closing_of_long {c : Curve} {p : Position} {r : Reserves} {d priceScale : Float}
    {closing : Closing} (h : c.closePosition p r d priceScale = .ok closing)
    (hd : Band.invariant.low ≤ d) (hp : 0 < p.size) :
    ∃ q, c.quoteOutput 1 0 p.size r d priceScale = .ok q ∧
      closing.unrealized = q.amount - p.openNotional := by
  obtain ⟨q, hq, rfl⟩ := (closing_of_long_iff hd hp).mp h
  exact ⟨q, hq, rfl⟩

/-- The value of a short that is closed. -/
theorem Curve.closing_of_short {c : Curve} {p : Position} {r : Reserves} {d priceScale : Float}
    {closing : Closing} (h : c.closePosition p r d priceScale = .ok closing)
    (hd : Band.invariant.low ≤ d) (hp : p.size < 0) :
    ∃ q, c.quoteInput 0 1 (-p.size) r d priceScale = .ok q ∧
      closing.unrealized = p.openNotional - q.amount := by
  rw [closePosition_of_short hd hp] at h
  split at h
  · cases h
  · obtain ⟨q, hq, h⟩ := Outcome.bind_eq_ok.mp h
    cases h
    exact ⟨q, hq, rfl⟩

/-- Nothing is closed for a flat position. -/
theorem Curve.closing_of_flat {c : Curve} {p : Position} {r : Reserves} {d priceScale : Float}
    {closing : Closing} (h : c.closePosition p r d priceScale = .ok closing)
    (hp : (p.size == 0) = true) : closing.unrealized = 0 := by
  have hlong : ¬ 0 < p.size := fun h => Double.not_beq_of_lt (.inr h) hp
  have hshort : ¬ p.size < 0 := fun h => Double.not_beq_of_lt (.inl h) hp
  simp only [closePosition, hlong, hshort, if_false, ite_self] at h
  cases h
  rfl

/-! ## Shares -/

/-- The notional of a share, with no part of it realized: a long was opened for
the quote of the basis that was not withdrawn, a short for the quote that was
withdrawn on top of the basis. -/
def State.unsettledNotional (s : State) (tokens : Float) (b : Basis) : Float :=
  let withdrawn := s.reserves.quote * tokens / s.totalSupply
  let basis := basisPart b.quote tokens b.tokens
  if (s.withdrawTokens tokens b).position.size > 0 then basis - withdrawn else withdrawn - basis

theorem State.openNotional_withdrawTokens (s : State) (tokens : Float) (b : Basis) :
    let share := s.withdrawTokens tokens b
    share.position.openNotional =
      (settleNotional share.position.size (s.unsettledNotional tokens b)).2 ∧
    share.realized = (settleNotional share.position.size (s.unsettledNotional tokens b)).1 :=
  ⟨rfl, rfl⟩

/-- Some tokens are withdrawn only if there are that many. -/
theorem State.makerShare_eq_ok {s : State} {tokens : Float} {b : Basis} {share : Share}
    (ht : Positive s.totalSupply) (hpos : 0 < tokens) (h : s.makerShare tokens b = .ok share) :
    Positive tokens ∧ share = s.withdrawTokens tokens b := by
  have hzero : ¬ (tokens == 0) = true := Double.not_beq_of_lt (.inr hpos)
  rw [makerShare, if_neg (by simpa using Double.le_of_lt hpos), if_neg hzero] at h
  split at h
  · cases h
  split at h
  case isTrue => cases h
  case isFalse hmore =>
    cases h
    obtain ⟨-, hnan, h0⟩ := lt_iff.mp hpos
    have hle : tokens ≤ s.totalSupply := Double.le_of_not_lt ht.unsigned.isNaN hnan hmore
    have htop : value tokens < ⊤ := (le_iff.mp hle).2.2.trans_lt (positive_iff_value.mp ht).2.2
    exact ⟨positive_iff_value.mpr ⟨hnan, value_zero ▸ h0, htop⟩, rfl⟩

/-- The notional of a share is never `-0`, unless it is that of a long. -/
theorem State.unsettledNotional_ne {s : State} (hv : s.Valid) {tokens : Float}
    (ht : Positive tokens) {b : Basis} (hs : ¬ 0 < (s.withdrawTokens tokens b).position.size) :
    view (s.unsettledNotional tokens b) ≠ .zero .negative := by
  obtain ⟨hq, -, -, -, hsupply, -⟩ := State.valid_iff.mp hv
  have hw : Unsigned (s.reserves.quote * tokens / s.totalSupply) :=
    (hq.mul_unsigned ht.unsigned).div_positive hsupply
  rw [unsettledNotional, if_neg hs]
  intro hz
  rw [Unsigned, (zeros_of_sub hz).1] at hw
  cases hw

/-! ## Values -/

/-- A share of some tokens is valued by closing its position in the pool that it
leaves. -/
theorem Curve.makerValue_eq_ok {c : Curve} {s : State} (ht : Positive s.totalSupply)
    {tokens : Float} (hpos : 0 < tokens) {b : Basis} {v : MakerValue}
    (h : c.makerValue s tokens b = .ok v) :
    let rest := s.withdrawTokens tokens b
    Positive tokens ∧ ∃ closing,
      c.closePosition rest.position rest.reserves rest.invariant s.priceScale = .ok closing ∧
        v = ⟨rest.position, closing.unrealized + rest.realized⟩ := by
  obtain ⟨share, hshare, h⟩ := Outcome.bind_eq_ok.mp h
  obtain ⟨closing, hclose, h⟩ := Outcome.bind_eq_ok.mp h
  cases h
  obtain ⟨hp, rfl⟩ := State.makerShare_eq_ok ht hpos hshare
  exact ⟨hp, closing, hclose, rfl⟩

/-- The profit or loss of a share is that of closing its position with the whole
notional open, on both sides of the market and for either sign of the notional;
a flat share keeps a positive notional and drops a negative one.  The position
is what the tokens withdraw beyond the basis, and it is closed in what they
leave of the reserves and of the invariant. -/
theorem Curve.makerValue_unsettled (c : Curve) {s : State} (hv : s.Valid) {tokens : Float}
    (hpos : 0 < tokens) (b : Basis) {v : MakerValue} (h : c.makerValue s tokens b = .ok v)
    (hd : Band.invariant.low ≤ s.invariant - s.invariant * tokens / s.totalSupply) :
    let withdrawn : Reserves :=
      ⟨s.reserves.quote * tokens / s.totalSupply, s.reserves.base * tokens / s.totalSupply⟩
    let basis : Reserves :=
      if tokens == b.tokens then ⟨b.quote, b.base⟩
      else ⟨b.quote * tokens / b.tokens, b.base * tokens / b.tokens⟩
    let rest : Reserves :=
      ⟨s.reserves.quote - withdrawn.quote, s.reserves.base - withdrawn.base⟩
    let d := s.invariant - s.invariant * tokens / s.totalSupply
    let n := if v.position.size > 0 then basis.quote - withdrawn.quote
      else withdrawn.quote - basis.quote
    v.position.size = withdrawn.base - basis.base ∧
    (0 < v.position.size → ∃ q,
      c.quoteOutput 1 0 v.position.size rest d s.priceScale = .ok q ∧
        v.unrealized = q.amount - n) ∧
    (v.position.size < 0 → ∃ q,
      c.quoteInput 0 1 (-v.position.size) rest d s.priceScale = .ok q ∧
        v.unrealized = n - q.amount) ∧
    ((v.position.size == 0) = true → n.isNaN = false → v.unrealized = max n 0) := by
  intro withdrawn basis rest d n
  have hsupply := (State.valid_iff.mp hv).2.2.2.2.1
  obtain ⟨ht, closing, hclose, rfl⟩ := makerValue_eq_ok hsupply hpos h
  obtain ⟨hopen, hrealized⟩ := s.openNotional_withdrawTokens tokens b
  have hbasis : basis = ⟨basisPart b.quote tokens b.tokens, basisPart b.base tokens b.tokens⟩ := by
    unfold basisPart
    by_cases hall : (tokens == b.tokens) = true
    · rw [if_pos hall, if_pos hall]
      exact if_pos hall
    · rw [if_neg hall, if_neg hall]
      exact if_neg hall
  have hn : n = s.unsettledNotional tokens b := by
    rw [State.unsettledNotional]
    simp only [n, hbasis]
    rfl
  rw [hn]
  refine ⟨by rw [hbasis]; rfl, fun hlong => ?_, fun hshort => ?_, fun hflat hnan => ?_⟩
  · obtain ⟨q, hq, hu⟩ := closing_of_long hclose hd hlong
    refine ⟨q, hq, ?_⟩
    rw [hu, hopen, hrealized]
    exact settleNotional_long hlong (quoteOutput_amount_ne hq)
  · obtain ⟨q, hq, hu⟩ := closing_of_short hclose hd hshort
    refine ⟨q, hq, ?_⟩
    rw [hu, hopen, hrealized]
    exact settleNotional_short hshort (State.unsettledNotional_ne hv ht (Double.lt_asymm hshort))
  · rw [closing_of_flat hclose hflat, hrealized]
    exact settleNotional_flat hflat hnan

/-- Half of a market, minted when there was less of both assets in that half: a
long of 100 with a negative notional, sold into the other half. -/
theorem makerValue_unsettled_even :
    let c := Pool.even.curve
    let s := Pool.even.state
    let b : Basis := ⟨500, 400, 400⟩
    ∃ v q, c.makerValue s 500 b = .ok v ∧ v.position.size = 100 ∧
      c.quoteOutput 1 0 v.position.size ⟨500, 500⟩ 1000 1 = .ok q ∧
      v.unrealized = q.amount - (-100) := by
  intro c s b
  obtain ⟨v, hval⟩ := Outcome.isOk_iff.mp
    (by decide +kernel : (c.makerValue s 500 b).isOk = true)
  obtain ⟨hsize, hlong, -⟩ := Curve.makerValue_unsettled c Pool.built_even.valid
    (by decide +kernel : (0 : Float) < 500) b hval (by decide +kernel)
  have hsize : v.position.size = 100 := hsize.trans (by decide +kernel)
  obtain ⟨q, hq, hu⟩ := hlong (by rw [hsize]; decide +kernel)
  rw [hsize, if_pos (by decide +kernel)] at hu
  exact ⟨v, q, hval, hsize, hq, hu.trans (congrArg (q.amount - ·) (by decide +kernel))⟩

end VirtualMarket
