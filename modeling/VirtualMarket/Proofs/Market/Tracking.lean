/-
VirtualMarket.Proofs.Market.Tracking — when the tracked prices stay usable.

A market tracks two prices: the one noted by the last update, and the moving
average of the noted ones.  Nothing tests them.  A trade price is noted if it is
positive, infinity included, and in its place comes the price of a probe, which
an invariant handed in can make negative.  The average has a part in this only
at the very end of the doubles, where it can fall to zero; apart from that it is
usable if the prices are that enter it, provided that the seconds between two
updates can be counted and powers of a half are weights.  So the tracked prices
stay usable along a run exactly if every update notes a usable price and no
average underflows.
-/
import VirtualMarket.Proofs.Double.Average
import VirtualMarket.Proofs.Double.Monotone
import VirtualMarket.Proofs.Double.Numeral
import VirtualMarket.Proofs.Market.Clock
import VirtualMarket.Proofs.Market.Validity

namespace VirtualMarket

open Double

/-! ## Weights -/

/-- Halvings of one lie between zero and one. -/
theorem halvings_weight (n : Nat) : Unsigned (halvings n) ∧ halvings n ≤ 1 := by
  induction n with
  | zero => exact ⟨positive_one.unsigned, Double.le_refl rfl⟩
  | succ n ih =>
    obtain ⟨hu, h1⟩ := ih
    refine ⟨hu.div_positive positive_two, ?_⟩
    rcases zero_or_positive hu.nonneg (isFinite_of_le hu.nonneg h1 rfl) with ⟨s, hv⟩ | hp
    · have hzero : view (halvings n / 2) = .zero s := by
        rw [div_eq_ofView, hv]
        cases s <;> rfl
      exact le_of_zero hzero positive_one.unsigned.nonneg
    · refine positive_one.div_le hp positive_two ?_
      have hle := real_le_real hu.nonneg h1 rfl
      rw [real_one] at hle
      rw [real_two, real_one]
      linarith

/-- The power is a whole number. -/
def WholePower (power : Float) : Prop :=
  (Float.ofNat (Decimal.magnitude power).nearestWhole == power) = true

instance (power : Float) : Decidable (WholePower power) :=
  inferInstanceAs (Decidable (_ = true))

/-- Whole powers of a half are weights. -/
theorem WholePower.weight {power : Float} (h : WholePower power) :
    0 ≤ halfToThe power ∧ halfToThe power ≤ 1 := by
  have hhalf : halfToThe power = halvings (min (Decimal.magnitude power).nearestWhole 1075) :=
    if_pos h
  rw [hhalf]
  obtain ⟨hu, h1⟩ := halvings_weight (min (Decimal.magnitude power).nearestWhole 1075)
  exact ⟨hu.nonneg, h1⟩

/-! ## The moving average -/

/-- A count of seconds that is in range is not wrapped around. -/
theorem wrap64_of_lt {seconds : Int} (h0 : 0 ≤ seconds) (h : seconds < 2 ^ 63) :
    wrap64 seconds = seconds :=
  Int.bmod_eq_of_le_mul_two (by omega) (by omega)

namespace State

variable {s : State} {now : Int}

/-- The prices that a market tracks are positive and finite. -/
structure Tracked (s : State) : Prop where
  oracle : usable s.priceOracle = true
  last : usable s.lastPrice = true

theorem tracked_iff : s.Tracked ↔ usable s.priceOracle = true ∧ usable s.lastPrice = true :=
  ⟨fun h => ⟨h.oracle, h.last⟩, fun h => ⟨h.1, h.2⟩⟩

instance (s : State) : Decidable s.Tracked :=
  decidable_of_iff _ tracked_iff.symm

/-- How many half-lives have passed since the last change of the average. -/
def halfLives (s : State) (now : Int) : Float :=
  Float.ofInt (wrap64 (now - s.lastUpdate)) / s.halfLife

theorem halfLives_nonneg (hl : Positive s.halfLife) (h : s.lastUpdate < now)
    (hfits : now - s.lastUpdate < 2 ^ 63) : 0 ≤ s.halfLives now := by
  obtain ⟨n, hn⟩ := Int.eq_ofNat_of_zero_le (Int.sub_nonneg_of_le h.le)
  obtain ⟨u, hu, hs, -⟩ := rounds_ofNat (n := n) (by omega)
  have helapsed : Unsigned (Float.ofInt (wrap64 (now - s.lastUpdate))) := by
    rw [wrap64_of_lt (by omega) hfits, hn]
    change Unsigned (Float.ofNat n)
    rw [hu]
    exact unsigned_ofView hs
  exact (helapsed.div_positive hl).nonneg

/-- The new average; the old one has lost a half of its weight in every
half-life. -/
theorem priceOracle_of_lt (h : s.lastUpdate < now) :
    (s.advanceOracle now).priceOracle =
      average s.lastPrice s.priceOracle (halfToThe (s.halfLives now)) := by
  rw [advanceOracle, if_pos h]
  rfl

end State

/-! ## The noted price -/

/-- The price that an update of `s` notes: that of the trade if it is positive,
else that of a probe against the invariant that the update has found. -/
inductive Curve.Notes (c : Curve) (s : State) (tradePrice supplied : Option Float) : Float → Prop
  | traded {price : Float} (given : tradePrice = some price) (positive : 0 < price) :
      Notes c s tradePrice supplied price
  | probed {d price : Float} (refused : ∀ given, tradePrice = some given → ¬ 0 < given)
      (found : c.unadjustedInvariant s.scaledReserves supplied = .ok d)
      (probe : c.probePrice s.scaledReserves d s.priceScale = .ok price) :
      Notes c s tradePrice supplied price

theorem Curve.Finds.notes_iff {c : Curve} {s : State} {tradePrice supplied : Option Float}
    {d lastPrice virtualPrice profit price : Float}
    (h : c.Finds s tradePrice supplied d lastPrice virtualPrice profit) :
    c.Notes s tradePrice supplied price ↔ price = lastPrice := by
  have hl := h.lastPrice
  by_cases ht : ∃ given, tradePrice = some given ∧ 0 < given
  · obtain ⟨given, rfl, hp⟩ := ht
    rw [lastPriceAfter, if_pos hp] at hl
    cases hl
    constructor
    · rintro (⟨hg, -⟩ | ⟨hr, -, -⟩)
      · exact (Option.some.inj hg).symm
      · exact absurd hp (hr _ rfl)
    · rintro rfl
      exact .traded rfl hp
  · have hr : ∀ given, tradePrice = some given → ¬ 0 < given :=
      fun given hg hp => ht ⟨given, hg, hp⟩
    have hprobe : c.probePrice s.scaledReserves d s.priceScale = .ok lastPrice := by
      cases tradePrice with
      | none => exact hl
      | some given => rwa [lastPriceAfter, if_neg (hr _ rfl)] at hl
    constructor
    · rintro (⟨hg, hp⟩ | ⟨-, found, probe⟩)
      · exact absurd hp (hr _ hg)
      · cases h.invariant.symm.trans found
        exact Except.ok.inj (probe.symm.trans hprobe)
    · rintro rfl
      exact .probed hr h.invariant hprobe

/-- An update leaves the price that it notes, and notes no other. -/
theorem Curve.Updates.notes_iff {c : Curve} {s s' : State} {tradePrice supplied : Option Float}
    {now : Int} {move : PegMove} (h : c.Updates s tradePrice supplied now move s')
    {price : Float} : c.Notes s tradePrice supplied price ↔ price = s'.lastPrice := by
  cases h with
  | unchanged found | moved found | discarded found => exact found.notes_iff

/-! ## One operation -/

namespace Entry

variable {e : Entry}

/-- `price` is noted by the update that the operation ended in. -/
def Notes (e : Entry) (price : Float) : Prop :=
  ∃ answer, e.op.mutates = true ∧ e.answer = .ok answer ∧
    e.before.curve.Notes
      { e.before.state with reserves := e.op.post answer e.before.state.reserves }
      (e.op.price? answer) e.op.supplied? price

/-- The operation has succeeded at `now`, which is later than the last change of
the average. -/
def Later (e : Entry) (now : Int) : Prop :=
  e.tick? = some now ∧ e.before.state.lastUpdate < now

/-- The seconds since the last change of the average are not too many to be
counted. -/
def ClockFits (e : Entry) : Prop :=
  ∀ now, e.Later now → now - e.before.state.lastUpdate < 2 ^ 63

/-- The average falls to zero between two least prices. -/
def Underflows (e : Entry) : Prop :=
  ∃ now, e.Later now ∧ AverageUnderflows e.before.state.lastPrice e.before.state.priceOracle
    (halfToThe (e.before.state.halfLives now))

/-- Powers of a half to what is not negative are weights.  For whole powers this
is so, for the others the library function promises it. -/
def WeighsWell (e : Entry) : Prop :=
  ∀ now, e.Later now → 0 ≤ e.before.state.halfLives now →
    0 ≤ halfToThe (e.before.state.halfLives now) ∧ halfToThe (e.before.state.halfLives now) ≤ 1

/-- Nothing comes later with a stale clock. -/
theorem Stale.not_later (h : e.Stale) (now : Int) : ¬ e.Later now := by
  rintro ⟨hnow, hlt⟩
  exact not_lt.mpr (h now (tick?_eq_some_iff.mp hnow).2) hlt

/-- With a stale clock nothing is weighed. -/
theorem Stale.weighsWell (h : e.Stale) : e.WeighsWell :=
  fun now hl => absurd hl (h.not_later now)

theorem Stale.clockFits (h : e.Stale) : e.ClockFits :=
  fun now hl => absurd hl (h.not_later now)

theorem notes_iff {now : Int} (h : e.tick? = some now) {price : Float} :
    e.Notes price ↔ price = e.after.state.lastPrice := by
  obtain ⟨⟨answer, ha⟩, ht⟩ := tick?_eq_some_iff.mp h
  cases performs ha with
  | reads mutates => cases (Pool.timeOf?_of_reads mutates).symm.trans ht
  | updates mutates time move priced update leaves =>
    rw [leaves]
    refine Iff.trans ?_ (Curve.updates_of_update update).notes_iff
    constructor
    · rintro ⟨answer', -, ha', hnotes⟩
      cases ha.symm.trans ha'
      exact hnotes
    · exact fun hnotes => ⟨answer, mutates, ha, hnotes⟩

theorem tick?_of_notes {price : Float} (h : e.Notes price) : ∃ now, e.tick? = some now := by
  obtain ⟨answer, hm, ha, -⟩ := h
  cases performs ha with
  | reads mutates => cases hm.symm.trans mutates
  | updates mutates time => exact ⟨_, tick?_eq_some_iff.mpr ⟨⟨answer, ha⟩, time⟩⟩

/-- The average after an operation is usable unless it underflows. -/
theorem oracle_after_iff (hv : e.before.state.Valid) (ht : e.before.state.Tracked)
    (hc : e.ClockFits) (hw : e.WeighsWell) : State.usable e.after.state.priceOracle = true ↔ ¬ e.Underflows := by
  cases hnow : e.tick? with
  | none =>
    rw [after_of_tick?_eq_none hnow]
    refine iff_of_true ht.oracle ?_
    rintro ⟨now, ⟨hsome, -⟩, -⟩
    cases hnow.symm.trans hsome
  | some now =>
    rw [(oracle_after hnow).1]
    by_cases hlt : e.before.state.lastUpdate < now
    · have hl := (State.valid_iff.mp hv).2.2.2.2.2
      obtain ⟨h0, h1⟩ := hw now ⟨hnow, hlt⟩ (State.halfLives_nonneg hl hlt (hc now ⟨hnow, hlt⟩))
      rw [State.priceOracle_of_lt hlt, State.usable_iff, positive_average_iff
        (State.usable_iff.mp ht.last) (State.usable_iff.mp ht.oracle) h0 h1, not_iff_not]
      constructor
      · exact fun h => ⟨now, ⟨hnow, hlt⟩, h⟩
      · rintro ⟨now', ⟨hnow', -⟩, h⟩
        cases hnow.symm.trans hnow'
        exact h
    · rw [State.advanceOracle_of_le (not_lt.mp hlt)]
      refine iff_of_true ht.oracle ?_
      rintro ⟨now', ⟨hnow', hlt'⟩, -⟩
      cases hnow.symm.trans hnow'
      exact hlt hlt'

/-- The last price after an operation is usable if and only if it has noted
nothing else. -/
theorem last_after_iff (ht : e.before.state.Tracked) :
    State.usable e.after.state.lastPrice = true ↔
      ∀ price, e.Notes price → State.usable price = true := by
  cases hnow : e.tick? with
  | none =>
    rw [after_of_tick?_eq_none hnow]
    refine iff_of_true ht.last fun price hn => ?_
    obtain ⟨now, hsome⟩ := tick?_of_notes hn
    cases hnow.symm.trans hsome
  | some now => simp [notes_iff hnow]

/-- One operation keeps the tracked prices usable if and only if it notes a
usable price, should it note one, and the average does not underflow. -/
theorem tracked_after_iff (hv : e.before.state.Valid) (ht : e.before.state.Tracked)
    (hc : e.ClockFits) (hw : e.WeighsWell) :
    e.after.state.Tracked ↔
      (∀ price, e.Notes price → State.usable price = true) ∧ ¬ e.Underflows := by
  rw [← last_after_iff ht, ← oracle_after_iff hv ht hc hw, State.tracked_iff, and_comm]

end Entry

/-! ## Runs -/

namespace Pool

/-- The tracked prices stay usable along a run if and only if every price that
is noted is usable and no average underflows, as long as the clock does not
overflow. -/
theorem tracked_along_run_iff {p : Pool} (hv : p.state.Valid) (ht : p.state.Tracked)
    (ops : List Operation) (hc : ∀ e ∈ p.journal ops, e.ClockFits)
    (hw : ∀ e ∈ p.journal ops, e.WeighsWell) :
    (∀ e ∈ p.journal ops, e.after.state.Tracked) ↔
      ∀ e ∈ p.journal ops,
        (∀ price, e.Notes price → State.usable price = true) ∧ ¬ e.Underflows := by
  induction ops generalizing p with
  | nil => simp [journal]
  | cons op rest ih =>
    rw [journal, List.forall_mem_cons, List.forall_mem_cons]
    rw [journal, List.forall_mem_cons] at hc hw
    have hvalid : (p.apply op).2.state.Valid := (valid_run hv [op]).1
    have hstep := Entry.tracked_after_iff (e := ⟨p, op⟩) hv ht hc.1 hw.1
    refine Iff.trans (and_congr_right fun h => ih hvalid h hc.2 hw.2) (and_congr_left' hstep)

/-- A sale with a clock that stands still, and an update one half-life later, in
which the average takes in the price of the sale. -/
theorem tracked_along_run_even :
    let ops : List Operation := [.sell 1 0 (some 0), .update none none 600]
    (∀ e ∈ even.journal ops, e.after.state.Tracked) ∧
      (even.run ops).2.state.priceOracle < even.state.priceOracle ∧
      ∀ e ∈ even.journal ops,
        (∀ price, e.Notes price → State.usable price = true) ∧ ¬ e.Underflows := by
  intro ops
  have hsale : (Entry.mk even (.sell 1 0 (some 0))).Stale := by
    intro now ht
    cases ht
    exact le_rfl
  -- the update comes at 600 to whatever pool the sale has left
  have hlater : ∀ p now, (Entry.mk p (.update none none 600)).Later now → now = 600 := by
    rintro p now ⟨hnow, -⟩
    cases (Entry.tick?_eq_some_iff.mp hnow).2
    rfl
  have hfits : ∀ p : Pool, p.state.lastUpdate = 0 →
      (Entry.mk p (.update none none 600)).ClockFits := by
    intro p hp now h
    rw [hlater p now h, hp]
    omega
  have hweighs : ∀ p : Pool, WholePower (p.state.halfLives 600) →
      (Entry.mk p (.update none none 600)).WeighsWell := by
    intro p hp now h _
    rw [hlater p now h]
    exact hp.weight
  obtain ⟨htime, hwhole, hsold, hupdated, hmoved⟩ :
      (even.apply (.sell 1 0 (some 0))).2.state.lastUpdate = 0 ∧
      WholePower ((even.apply (.sell 1 0 (some 0))).2.state.halfLives 600) ∧
      (Entry.mk even (.sell 1 0 (some 0))).after.state.Tracked ∧
      (Entry.mk (even.apply (.sell 1 0 (some 0))).2 (.update none none 600)).after.state.Tracked ∧
      (even.run ops).2.state.priceOracle < even.state.priceOracle := by
    decide +kernel
  have hc : ∀ e ∈ even.journal ops, e.ClockFits := by
    rw [journal, journal, journal, List.forall_mem_cons, List.forall_mem_singleton]
    exact ⟨hsale.clockFits, hfits _ htime⟩
  have hw : ∀ e ∈ even.journal ops, e.WeighsWell := by
    rw [journal, journal, journal, List.forall_mem_cons, List.forall_mem_singleton]
    exact ⟨hsale.weighsWell, hweighs _ hwhole⟩
  have htracked : ∀ e ∈ even.journal ops, e.after.state.Tracked := by
    rw [journal, journal, journal, List.forall_mem_cons, List.forall_mem_singleton]
    exact ⟨hsold, hupdated⟩
  exact ⟨htracked, hmoved,
    (tracked_along_run_iff built_even.valid (by decide +kernel) ops hc hw).mp htracked⟩

/-! ## Prices that are not usable -/

/-- A pool with a million of quote and a thousand of base. -/
def seeded : Pool :=
  ⟨{}, {}, { depositState {} ⟨1000000, 1000⟩ 2000000 1000 0 with
    totalSupply := 31622.776601683792 }⟩

theorem built_seeded : seeded.Built := by
  have h : ofState {} {} seeded.state = .ok seeded := by rfl
  exact .ofState h

/-- An infinite trade price is noted, whether it is handed in or the quotient of
a purchase that is small enough; an invariant handed in makes the price of a
probe negative. -/
theorem unusable_prices_noted :
    seeded.Built ∧ seeded.state.Tracked ∧
      (∃ e ∈ seeded.journal [.update (some Decimal.infinity) none 0], ¬ e.after.state.Tracked) ∧
      (∃ e ∈ seeded.journal [.buy 1e-320 Decimal.largestFinite (some 0)],
        ¬ e.after.state.Tracked) ∧
      ∃ e ∈ seeded.journal [.update none (some 2100000) 0], ¬ e.after.state.Tracked := by
  refine ⟨built_seeded, by decide +kernel, ⟨_, List.mem_cons_self, ?_⟩,
    ⟨_, List.mem_cons_self, ?_⟩, ⟨_, List.mem_cons_self, ?_⟩⟩
  · decide +kernel
  · decide +kernel
  · decide +kernel

end Pool

end VirtualMarket
