/-
VirtualMarket.Proofs.Replay.Candle — which histories are accepted, and which bar is
blamed.

A history is tested bar by bar, each against the one before it, up to the first bar
that breaks a rule.  Times that increase from bar to bar increase between any two, so
what is accepted is in order throughout, and so are the rows of every replay of it.
What is refused is refused for its first bar that breaks a rule, and for the first rule
that this bar breaks; the words of the refusal tell both.
-/
import VirtualMarket.Proofs.Decimal.Layout
import VirtualMarket.Proofs.Replay.Report

namespace VirtualMarket

/-! ## Rules -/

/-- The four prices of a bar. -/
def Candle.prices (c : Candle) : List Float :=
  [c.openPrice, c.highPrice, c.lowPrice, c.closePrice]

/-- The rules that a bar breaks after the bar before it, if there is one. -/
def Candle.Breaks (c : Candle) (before : Option Candle) : CandleRule → Prop
  | .positivePrices => ∃ x ∈ c.prices, ¬ (0 < x ∧ x.isFinite = true)
  | .lowBelowHigh => c.highPrice < c.lowPrice
  | .timeOrder => ∃ b ∈ before, c.time ≤ b.time

instance (c : Candle) (before : Option Candle) : DecidablePred (c.Breaks before)
  | .positivePrices => inferInstanceAs (Decidable (∃ x ∈ c.prices, ¬ (0 < x ∧ x.isFinite = true)))
  | .lowBelowHigh => inferInstanceAs (Decidable (c.highPrice < c.lowPrice))
  | .timeOrder => inferInstanceAs (Decidable (∃ b ∈ before, c.time ≤ b.time))

/-- The rules that are looked at before a rule. -/
def CandleRule.earlier : CandleRule → List CandleRule
  | .positivePrices => []
  | .lowBelowHigh => [.positivePrices]
  | .timeOrder => [.positivePrices, .lowBelowHigh]

/-- A rule that a bar breaks, and the first of those. -/
structure Candle.BreaksFirst (c : Candle) (before : Option Candle) (rule : CandleRule) : Prop where
  breaks : c.Breaks before rule
  first : ∀ other ∈ rule.earlier, ¬ c.Breaks before other

namespace Candle

variable {c : Candle} {before : Option Candle} {rule : CandleRule}

theorem pricePositive_iff {x : Float} : pricePositive x = true ↔ 0 < x ∧ x.isFinite = true := by
  simp [pricePositive]

theorem breaks_positivePrices_iff (before : Option Candle) :
    c.Breaks before .positivePrices ↔
      (!(pricePositive c.openPrice && pricePositive c.highPrice && pricePositive c.lowPrice
        && pricePositive c.closePrice)) = true := by
  simp [Breaks, prices, ← pricePositive_iff, or_assoc]

theorem breaks_timeOrder_iff : c.Breaks before .timeOrder ↔
    (before.map time).any (fun t => c.time ≤ t) = true := by
  cases before <;> simp [Breaks]

/-- The rules are looked at one after another. -/
theorem brokenRule?_eq (c : Candle) (before : Option Candle) :
    c.brokenRule? (before.map time) =
      if c.Breaks before .positivePrices then some .positivePrices
      else if c.Breaks before .lowBelowHigh then some .lowBelowHigh
      else if c.Breaks before .timeOrder then some .timeOrder
      else none := by
  simp only [brokenRule?, ← breaks_positivePrices_iff before, ← breaks_timeOrder_iff]
  rfl

theorem brokenRule?_eq_none :
    c.brokenRule? (before.map time) = none ↔ ∀ rule, ¬ c.Breaks before rule := by
  rw [brokenRule?_eq]
  constructor
  · intro h rule
    split_ifs at h with h₀ h₁ h₂
    cases rule <;> assumption
  · intro h
    simp only [h, if_false]

/-- The rule that a bar is found to break is the first that it breaks. -/
theorem brokenRule?_eq_some :
    c.brokenRule? (before.map time) = some rule ↔ c.BreaksFirst before rule := by
  rw [brokenRule?_eq]
  constructor
  · intro h
    split_ifs at h with h₀ h₁ h₂ <;> obtain rfl := Option.some.inj h
    · exact ⟨h₀, nofun⟩
    · exact ⟨h₁, by simp [CandleRule.earlier, h₀]⟩
    · exact ⟨h₂, by simp [CandleRule.earlier, h₀, h₁]⟩
  · rintro ⟨hbreaks, hfirst⟩
    cases rule with
    | positivePrices => rw [if_pos hbreaks]
    | lowBelowHigh =>
      rw [if_neg (hfirst .positivePrices (by simp [CandleRule.earlier])), if_pos hbreaks]
    | timeOrder =>
      rw [if_neg (hfirst .positivePrices (by simp [CandleRule.earlier])),
        if_neg (hfirst .lowBelowHigh (by simp [CandleRule.earlier])), if_pos hbreaks]

/-- A bar breaks no rule if its prices can be traded to, none of them is out of place
and it comes after the bar before it. -/
theorem breaks_nothing_iff : (∀ rule, ¬ c.Breaks before rule) ↔
    (∀ x ∈ c.prices, 0 < x ∧ x.isFinite = true) ∧ c.lowPrice ≤ c.highPrice ∧
      ∀ b ∈ before, b.time < c.time := by
  have hprices : ¬ c.Breaks before .positivePrices ↔ ∀ x ∈ c.prices, 0 < x ∧ x.isFinite = true := by
    simp only [Breaks, not_exists, not_and_not_right]
  have htime : ¬ c.Breaks before .timeOrder ↔ ∀ b ∈ before, b.time < c.time := by
    simp only [Breaks, not_exists, not_and, not_le]
  constructor
  · intro h
    have hpositive := hprices.mp (h _)
    -- low and high are numbers, for they are positive
    have hnum : ∀ x ∈ c.prices, x.isNaN = false := fun x hx =>
      Double.isNaN_right_of_lt (hpositive x hx).1
    exact ⟨hpositive, Double.le_of_not_lt (hnum _ (by simp [prices])) (hnum _ (by simp [prices]))
      (h .lowBelowHigh), htime.mp (h _)⟩
  · rintro ⟨hpositive, hspread, horder⟩ rule
    cases rule with
    | positivePrices => exact hprices.mpr hpositive
    | lowBelowHigh => exact fun hlt => Double.lt_irrefl (Double.lt_of_lt_of_le hlt hspread)
    | timeOrder => exact htime.mpr horder

end Candle

/-! ## Histories -/

/-- The bar that comes before a place of a history that `before` comes before. -/
def barBefore (before : Option Candle) (candles : List Candle) : Nat → Option Candle
  | 0 => before
  | k + 1 => candles[k]?

/-- The bar at place `k` is the first that breaks a rule, and `rule` is the first that
it breaks. -/
structure FirstBroken (before : Option Candle) (candles : List Candle) (k : Nat) (c : Candle)
    (rule : CandleRule) : Prop where
  bar : candles[k]? = some c
  breaks : c.BreaksFirst (barBefore before candles k) rule
  /-- The bars before it break no rule. -/
  first : ∀ i b, i < k → candles[i]? = some b →
    ∀ other, ¬ b.Breaks (barBefore before candles i) other

/-- A history that can be replayed: prices that can be traded to, no low above its high,
and times that increase. -/
structure WellFormed (candles : List Candle) : Prop where
  prices : ∀ c ∈ candles, ∀ x ∈ c.prices, 0 < x ∧ x.isFinite = true
  spread : ∀ c ∈ candles, c.lowPrice ≤ c.highPrice
  order : candles.Pairwise fun a b => a.time < b.time

section

variable {before : Option Candle} {c : Candle} {rest candles : List Candle} {k : Nat}
  {rule : CandleRule} {flaw : CandleFlaw}

theorem barBefore_cons (before : Option Candle) (c : Candle) (rest : List Candle) (k : Nat) :
    barBefore before (c :: rest) (k + 1) = barBefore (some c) rest k := by
  cases k <;> rfl

/-- The first bar is to blame if it breaks a rule. -/
theorem firstBroken_zero_iff {b : Candle} :
    FirstBroken before (c :: rest) 0 b rule ↔ c = b ∧ c.BreaksFirst before rule := by
  constructor
  · rintro ⟨hbar, hbreaks, -⟩
    obtain rfl : c = b := by simpa using hbar
    exact ⟨rfl, hbreaks⟩
  · rintro ⟨rfl, hbreaks⟩
    exact ⟨rfl, hbreaks, nofun⟩

/-- A later bar is to blame if it is among the bars after the first, which breaks no
rule. -/
theorem firstBroken_succ_iff {b : Candle} :
    FirstBroken before (c :: rest) (k + 1) b rule ↔
      (∀ other, ¬ c.Breaks before other) ∧ FirstBroken (some c) rest k b rule := by
  constructor
  · rintro ⟨hbar, hbreaks, hfirst⟩
    refine ⟨hfirst 0 c k.succ_pos rfl, by simpa using hbar, ?_, fun i b hi hb => ?_⟩
    · rwa [barBefore_cons] at hbreaks
    · have := hfirst (i + 1) b (Nat.succ_lt_succ hi) (by simpa using hb)
      rwa [barBefore_cons] at this
  · rintro ⟨hsound, hbar, hbreaks, hfirst⟩
    refine ⟨by simpa using hbar, by rwa [barBefore_cons], fun i b hi hb => ?_⟩
    cases i with
    | zero =>
      obtain rfl : c = b := by simpa using hb
      exact hsound
    | succ i =>
      rw [barBefore_cons]
      exact hfirst i b (Nat.lt_of_succ_lt_succ hi) (by simpa using hb)

/-- A history is refused for its first bar that breaks a rule. -/
theorem validateCandlesFrom_eq_error (index : Nat) (before : Option Candle) :
    validateCandlesFrom index (before.map Candle.time) candles = .error flaw ↔
      ∃ k c, FirstBroken before candles k c flaw.rule ∧ flaw.index = index + k ∧
        flaw.time = c.time := by
  induction candles generalizing index before with
  | nil => exact iff_of_false nofun fun ⟨k, c, h, _⟩ => by simpa using h.bar
  | cons c rest ih =>
    unfold validateCandlesFrom
    split
    · -- this bar is to blame, and no later one can be
      rename_i rule hrule
      constructor
      · rintro ⟨⟩
        exact ⟨0, c, firstBroken_zero_iff.mpr ⟨rfl, Candle.brokenRule?_eq_some.mp hrule⟩, rfl, rfl⟩
      · rintro ⟨k, b, hb, hindex, htime⟩
        have hbroken := Candle.brokenRule?_eq_some.mp hrule
        cases k with
        | zero =>
          obtain ⟨rfl, hbreaks⟩ := firstBroken_zero_iff.mp hb
          obtain rfl : rule = flaw.rule := by
            simpa [hrule] using Candle.brokenRule?_eq_some.mpr hbreaks
          rw [← htime, ← show flaw.index = index from hindex]
        | succ k => exact absurd hbroken.breaks ((firstBroken_succ_iff.mp hb).1 rule)
    · -- this bar breaks nothing, so the blame is that of the bars after it
      rename_i hnone
      have hsound := Candle.brokenRule?_eq_none.mp hnone
      refine (ih (index + 1) (some c)).trans ⟨?_, ?_⟩
      · rintro ⟨k, b, hb, hindex, htime⟩
        exact ⟨k + 1, b, firstBroken_succ_iff.mpr ⟨hsound, hb⟩, by omega, htime⟩
      · rintro ⟨k, b, hb, hindex, htime⟩
        cases k with
        | zero =>
          obtain ⟨rfl, hbreaks⟩ := firstBroken_zero_iff.mp hb
          exact absurd hbreaks.breaks (hsound _)
        | succ k => exact ⟨k, b, (firstBroken_succ_iff.mp hb).2, by omega, htime⟩

/-- A history is accepted if each bar is in order after the one before it. -/
theorem validateCandlesFrom_eq_ok (index : Nat) (before : Option Candle) :
    validateCandlesFrom index (before.map Candle.time) candles = .ok () ↔
      (∀ c ∈ candles, (∀ x ∈ c.prices, 0 < x ∧ x.isFinite = true) ∧ c.lowPrice ≤ c.highPrice) ∧
        (before.toList ++ candles).IsChain fun a b => a.time < b.time := by
  induction candles generalizing index before with
  | nil => exact iff_of_true rfl ⟨nofun, by cases before <;> simp⟩
  | cons c rest ih =>
    have hchain : ((before.toList ++ c :: rest).IsChain fun a b => a.time < b.time) ↔
        (∀ b ∈ before, b.time < c.time) ∧ (c :: rest).IsChain fun a b => a.time < b.time := by
      cases before <;> simp
    unfold validateCandlesFrom
    split
    · rename_i rule hrule
      refine iff_of_false nofun fun ⟨hgood, horder⟩ => ?_
      obtain ⟨hprices, hspread⟩ := hgood c List.mem_cons_self
      exact Candle.breaks_nothing_iff.mpr ⟨hprices, hspread, (hchain.mp horder).1⟩ rule
        (Candle.brokenRule?_eq_some.mp hrule).breaks
    · rename_i hnone
      obtain ⟨hprices, hspread, hbefore⟩ :=
        Candle.breaks_nothing_iff.mp (Candle.brokenRule?_eq_none.mp hnone)
      rw [hchain, List.forall_mem_cons]
      exact (ih (index + 1) (some c)).trans
        ⟨fun ⟨hgood, horder⟩ => ⟨⟨⟨hprices, hspread⟩, hgood⟩, hbefore, horder⟩,
          fun ⟨⟨_, hgood⟩, _, horder⟩ => ⟨hgood, horder⟩⟩

/-- Times that increase from bar to bar increase between any two. -/
theorem validateCandles_eq_ok : validateCandles candles = .ok () ↔ WellFormed candles := by
  have : Trans (fun a b : Candle => a.time < b.time) (fun a b : Candle => a.time < b.time)
      (fun a b : Candle => a.time < b.time) := ⟨Int.lt_trans⟩
  have hpairwise : candles.IsChain (fun a b => a.time < b.time) ↔
      candles.Pairwise (fun a b => a.time < b.time) := List.isChain_iff_pairwise
  refine (validateCandlesFrom_eq_ok 0 none).trans ?_
  rw [Option.toList_none, List.nil_append, hpairwise]
  exact ⟨fun ⟨hgood, horder⟩ => ⟨fun c hc => (hgood c hc).1, fun c hc => (hgood c hc).2, horder⟩,
    fun ⟨hprices, hspread, horder⟩ => ⟨fun c hc => ⟨hprices c hc, hspread c hc⟩, horder⟩⟩

theorem validateCandles_eq_error : validateCandles candles = .error flaw ↔
    ∃ c, FirstBroken none candles flaw.index c flaw.rule ∧ flaw.time = c.time := by
  refine (validateCandlesFrom_eq_error 0 none).trans ⟨?_, ?_⟩
  · rintro ⟨k, c, hbroken, hindex, htime⟩
    obtain rfl : flaw.index = k := hindex.trans (Nat.zero_add k)
    exact ⟨c, hbroken, htime⟩
  · rintro ⟨c, hbroken, htime⟩
    exact ⟨flaw.index, c, hbroken, (Nat.zero_add _).symm, htime⟩

end

/-! ## Words -/

/-- The words of a rule that is broken, after a blank. -/
def CandleRule.words : CandleRule → List Char
  | .positivePrices => "has a non-positive price".toList
  | .lowBelowHigh => "has low above high".toList
  | .timeOrder => "is out of order".toList

theorem CandleRule.words_injective : Function.Injective words := by
  intro rule other
  cases rule <;> cases other <;> decide

theorem CandleFlaw.toList_message (f : CandleFlaw) :
    f.message.toList = "candle ".toList ++ ((toString f.index).toList ++ ' ' ::
      ("at ".toList ++ ((toString f.time).toList ++ ' ' :: f.rule.words))) := by
  have hat : " at ".toList = ' ' :: "at ".toList := rfl
  obtain ⟨index, time, rule⟩ := f
  unfold message
  cases rule <;>
    simp only [String.toList_append, List.append_assoc, hat, List.cons_append] <;> rfl

/-- The words of a flaw tell which bar breaks which rule. -/
theorem CandleFlaw.message_injective : Function.Injective message := by
  intro f g h
  have hblank : Decimal.isDigit ' ' = false := by decide
  have hchars := congrArg String.toList h
  rw [toList_message, toList_message, Decimal.toList_toString_nat, Decimal.toList_toString_nat]
    at hchars
  obtain ⟨hindex, hrest⟩ := Decimal.digits_append_inj (List.append_cancel_left hchars)
    (Decimal.digits_digitsOf _).all hblank (Decimal.digits_digitsOf _).all hblank
  obtain ⟨htime, hwords⟩ := Decimal.toString_int_append_inj
    (List.append_cancel_left (List.cons.inj hrest).2) hblank hblank
  have hrule := CandleRule.words_injective (List.cons.inj hwords).2
  cases f
  cases g
  simp_all [Decimal.digitsOf_injective.eq_iff]

/-! ## Judgement -/

/-- A replay tells bars in the order of their times if that is the order of the history. -/
theorem Replay.rows_in_order (r : Replay) {candles : List Candle}
    (h : candles.Pairwise fun a b => a.time < b.time) :
    (r.run candles).1.rows.Pairwise fun a b => a.time < b.time := by
  have htimes : (r.run candles).1.rows.map ReportRow.time =
      (candles.take (r.stop (r.bars candles))).map Candle.time :=
    (r.adds_replayFrom 0 candles { pool := r.pool }).tells.times
  rw [← List.pairwise_map (R := (· < ·)), htimes, List.pairwise_map]
  exact h.sublist (List.take_sublist _ _)

/-- A history is accepted if it is well formed, and only then.  It is refused in words
that tell its first bar that breaks a rule after the bar before it, and the first rule
that this bar breaks.  The rows of every replay of an accepted history are in order. -/
theorem histories_are_judged (candles : List Candle) :
    (validateCandles candles = .ok () ↔ WellFormed candles) ∧
      (∀ text, (validateCandles candles).mapError CandleFlaw.message = .error text ↔
        ∃ (flaw : CandleFlaw) (c : Candle), FirstBroken none candles flaw.index c flaw.rule ∧
          flaw.time = c.time ∧ flaw.message = text) ∧
      Function.Injective CandleFlaw.message ∧
      (validateCandles candles = .ok () →
        ∀ r : Replay, (r.run candles).1.rows.Pairwise fun a b => a.time < b.time) := by
  refine ⟨validateCandles_eq_ok, fun text => ?_, CandleFlaw.message_injective, fun h r =>
    r.rows_in_order (validateCandles_eq_ok.mp h).order⟩
  have hflaw : (validateCandles candles).mapError CandleFlaw.message = .error text ↔
      ∃ flaw, validateCandles candles = .error flaw ∧ flaw.message = text := by
    cases validateCandles candles <;> simp [Except.mapError]
  simp only [hflaw, validateCandles_eq_error, exists_and_right, ← and_assoc]

/-- A rising bar and a flat one a minute later. -/
theorem histories_are_judged_rising :
    validateCandles [⟨0, 1, 2, 1, 2⟩, ⟨60, 2, 2, 2, 2⟩] = .ok () ∧
      ∀ r : Replay, (r.run [⟨0, 1, 2, 1, 2⟩, ⟨60, 2, 2, 2, 2⟩]).1.rows.Pairwise
        fun a b => a.time < b.time := by
  have haccepted : validateCandles [⟨0, 1, 2, 1, 2⟩, ⟨60, 2, 2, 2, 2⟩] = .ok () := by
    decide +kernel
  exact ⟨haccepted, (histories_are_judged _).2.2.2 haccepted⟩

/-- A bar that opens at no number and comes too early is refused for its price. -/
example : (validateCandles [⟨60, 1, 2, 1, 2⟩, ⟨0, 0 / 0, 2, 2, 2⟩]).mapError CandleFlaw.message =
    .error "candle 1 at 0 has a non-positive price" := by
  decide +kernel

end VirtualMarket
