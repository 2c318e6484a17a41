/-
VirtualMarket.Proofs.Sizing.FirstLot — a search stops at the first lot that
settles it.

The candidates of a search are the sums of one lot, two lots, and so on, up to
the step limit.  Each of them reaches the target, falls short of it, or fails,
and the search goes on past those that fall short and no others.  So its result
is that of the first candidate which does not fall short; where there is none,
the steps are used up.  Nothing is asked of the venue: its quotes may go up and
down, fail here and there, or be no numbers.
-/
import Mathlib.Logic.Function.Iterate
import VirtualMarket.Proofs.Sizing.Search

namespace VirtualMarket.Sizing

open Double

variable {s : Sizing} {v : Venue} {target size : Float}

/-! ## Candidates -/

/-- The size of `k` lots, added one at a time. -/
def lots (s : Sizing) (k : Nat) : Float :=
  (· + s.lot)^[k] 0

/-- One direction of a search, to buy or to sell. -/
structure Direction where
  target : Float
  /-- The reserve that a trade is served from, if there is one to look at. -/
  reserve? : Option Float
  quote : Float → Outcome Quote
  /-- Whether a price is at the target or past it. -/
  reached : Float → Bool
  /-- Whether a price is past the target by more than the tolerance. -/
  overshot : Float → Bool

/-- Purchases lift the price, until the base reserve is used up. -/
def upward (s : Sizing) (v : Venue) (target : Float) : Direction where
  target := target
  reserve? := some v.reserves.base
  quote := v.quotePurchase
  reached price := target ≤ price
  overshot price := target * (1 + s.tolerance) < price

/-- Sales lower the price, and no reserve limits them. -/
def downward (s : Sizing) (v : Venue) (target : Float) : Direction where
  target := target
  reserve? := none
  quote := v.quoteSale
  reached price := price ≤ target
  overshot price := price < target * (1 - s.tolerance)

namespace Direction

variable {d : Direction}

/-- The reserve is larger than the size.  One that is no number is never
reached. -/
def Serves (d : Direction) (size : Float) : Prop :=
  ∀ reserve, d.reserve? = some reserve → ¬ reserve ≤ size

/-- The candidate is quoted at a price that `lands`. -/
def Reaches (d : Direction) (lands : Float → Prop) (size : Float) : Prop :=
  d.Serves size ∧ ∃ quote, d.quote size = .ok quote ∧ lands quote.markPrice

/-- The candidate is quoted at a price that neither reaches the target nor
overshoots it. -/
def FallsShort (d : Direction) (size : Float) : Prop :=
  d.Serves size ∧ ∃ quote, d.quote size = .ok quote ∧
    d.reached quote.markPrice = false ∧ d.overshot quote.markPrice = false

/-- The ways a candidate fails.  What is tested first goes first. -/
inductive Fails (d : Direction) (size : Float) : Fault → Prop
  | spent {reserve : Float} (h : d.reserve? = some reserve) (reached : reserve ≤ size) :
      Fails d size (.insufficientLiquidity size reserve)
  | refused {fault : Fault} (serves : d.Serves size) (quoted : d.quote size = .error fault) :
      Fails d size fault
  | overshoots {quote : Quote} (serves : d.Serves size) (quoted : d.quote size = .ok quote)
      (beyond : d.overshot quote.markPrice = true) :
      Fails d size (.targetOvershoot quote.markPrice d.target)

/-- What is made of a candidate that the reserve can serve. -/
def judge (d : Direction) (size : Float) : Outcome Bool := do
  let quote ← d.quote size
  if d.overshot quote.markPrice then .error (.targetOvershoot quote.markPrice d.target)
  else .ok (d.reached quote.markPrice)

/-- What is made of a candidate. -/
def test (d : Direction) (size : Float) : Outcome Bool :=
  match d.reserve? with
  | none => d.judge size
  | some reserve =>
    if reserve ≤ size then .error (.insufficientLiquidity size reserve) else d.judge size

theorem judge_eq_ok {verdict : Bool} :
    d.judge size = .ok verdict ↔ ∃ quote, d.quote size = .ok quote ∧
      d.reached quote.markPrice = verdict ∧ d.overshot quote.markPrice = false := by
  unfold judge
  rw [Outcome.bind_eq_ok]
  refine exists_congr fun quote => and_congr_right fun _ => ?_
  cases d.overshot quote.markPrice <;> simp

theorem judge_eq_error {fault : Fault} :
    d.judge size = .error fault ↔ d.quote size = .error fault ∨
      ∃ quote, d.quote size = .ok quote ∧ d.overshot quote.markPrice = true ∧
        fault = .targetOvershoot quote.markPrice d.target := by
  unfold judge
  rw [Outcome.bind_eq_error]
  refine or_congr_right (exists_congr fun quote => and_congr_right fun _ => ?_)
  cases d.overshot quote.markPrice <;> simp [eq_comm]

/-- A candidate is judged unless the reserve is spent. -/
theorem test_cases (d : Direction) (size : Float) :
    (d.Serves size ∧ d.test size = d.judge size) ∨
      ∃ reserve, d.reserve? = some reserve ∧ reserve ≤ size ∧
        d.test size = .error (.insufficientLiquidity size reserve) := by
  unfold test Serves
  cases d.reserve? with
  | none => exact .inl ⟨nofun, rfl⟩
  | some reserve =>
    by_cases h : reserve ≤ size
    · exact .inr ⟨reserve, rfl, h, if_pos h⟩
    · exact .inl ⟨fun _ he => Option.some.inj he ▸ h, if_neg h⟩

theorem test_eq_ok {verdict : Bool} :
    d.test size = .ok verdict ↔ d.Serves size ∧ ∃ quote, d.quote size = .ok quote ∧
      d.reached quote.markPrice = verdict ∧ d.overshot quote.markPrice = false := by
  rcases d.test_cases size with ⟨hs, ht⟩ | ⟨reserve, hr, hle, ht⟩ <;> rw [ht]
  · rw [judge_eq_ok, and_iff_right hs]
  · exact iff_of_false nofun fun h => h.1 reserve hr hle

theorem test_eq_error {fault : Fault} : d.test size = .error fault ↔ d.Fails size fault := by
  rcases d.test_cases size with ⟨hs, ht⟩ | ⟨reserve, hr, hle, ht⟩ <;> rw [ht]
  · rw [judge_eq_error]
    constructor
    · rintro (h | ⟨quote, hq, ho, rfl⟩)
      · exact .refused hs h
      · exact .overshoots hs hq ho
    · rintro (⟨hr, hle⟩ | ⟨-, hq⟩ | ⟨-, hq, ho⟩)
      · exact absurd hle (hs _ hr)
      · exact .inl hq
      · exact .inr ⟨_, hq, ho, rfl⟩
  · constructor
    · intro h
      cases h
      exact .spent hr hle
    · rintro (⟨hr', -⟩ | ⟨hs, -⟩ | ⟨hs, -, -⟩)
      · cases hr.symm.trans hr'
        rfl
      · exact absurd hle (hs reserve hr)
      · exact absurd hle (hs reserve hr)

end Direction

theorem purchaseReaches_eq_test (s : Sizing) (v : Venue) (target : Float) :
    s.purchaseReaches v target = (s.upward v target).test := by
  funext size
  unfold purchaseReaches Direction.test upward Direction.judge
  simp only [ge_iff_le, gt_iff_lt, decide_eq_true_eq]

theorem saleReaches_eq_test (s : Sizing) (v : Venue) (target : Float) :
    s.saleReaches v target = (s.downward v target).test := by
  funext size
  unfold saleReaches Direction.test downward Direction.judge
  simp only [decide_eq_true_eq]

/-! ## The walk -/

variable {reached : Float → Outcome Bool} {steps : Nat}

/-- A walk succeeds at the first candidate that reaches the goal, if all before
it have been passed over. -/
theorem walk_eq_ok_iff {found : Float} :
    s.walk reached steps size = .ok found ↔
      ∃ k < steps, found = (· + s.lot)^[k + 1] size ∧
        reached ((· + s.lot)^[k + 1] size) = .ok true ∧
        ∀ j < k, reached ((· + s.lot)^[j + 1] size) = .ok false := by
  induction steps generalizing size with
  | zero => simp [walk]
  | succ steps ih =>
    simp only [walk, Nat.exists_lt_succ_left, Nat.forall_lt_succ_left, Function.iterate_succ_apply,
      Function.iterate_zero_apply]
    cases hr : reached (size + s.lot) with
    | error fault => simp
    | ok verdict => cases verdict <;> simp [ih, eq_comm]

theorem walk_eq_error_iff {fault : Fault} :
    s.walk reached steps size = .error fault ↔
      (fault = .searchExhausted s.maxSteps ((· + s.lot)^[steps] size) ∧
        ∀ j < steps, reached ((· + s.lot)^[j + 1] size) = .ok false) ∨
      ∃ k < steps, reached ((· + s.lot)^[k + 1] size) = .error fault ∧
        ∀ j < k, reached ((· + s.lot)^[j + 1] size) = .ok false := by
  induction steps generalizing size with
  | zero => simp [walk, eq_comm]
  | succ steps ih =>
    simp only [walk, Nat.exists_lt_succ_left, Nat.forall_lt_succ_left, Function.iterate_succ_apply,
      Function.iterate_zero_apply]
    cases hr : reached (size + s.lot) with
    | error fault => simp [eq_comm]
    | ok verdict => cases verdict <;> simp [ih]

/-! ## The first candidate that settles a search -/

/-- A search in one direction returns the first candidate that lands, if all
before it fall short; it fails like the first candidate that does, or for want
of steps if every candidate falls short. -/
structure FindsFirst (s : Sizing) (d : Direction) (lands : Float → Prop)
    (signed : Float → Float) (result : Outcome Float) : Prop where
  ok_iff (found : Float) : result = .ok found ↔
    ∃ k < s.maxSteps, found = signed (s.lots (k + 1)) ∧ d.Reaches lands (s.lots (k + 1)) ∧
      ∀ j < k, d.FallsShort (s.lots (j + 1))
  error_iff (fault : Fault) : result = .error fault ↔
    (fault = .searchExhausted s.maxSteps (s.lots s.maxSteps) ∧
      ∀ j < s.maxSteps, d.FallsShort (s.lots (j + 1))) ∨
    ∃ k < s.maxSteps, d.Fails (s.lots (k + 1)) fault ∧ ∀ j < k, d.FallsShort (s.lots (j + 1))

/-- A walk finds the first candidate, for any direction whose tests agree on
what it is to land. -/
theorem findsFirst_walk (s : Sizing) {d : Direction} {lands : Float → Prop}
    (hl : ∀ price, d.reached price = true ∧ d.overshot price = false ↔ lands price) :
    s.FindsFirst d lands id (s.walk d.test s.maxSteps 0) where
  ok_iff found := by
    simp only [walk_eq_ok_iff, Direction.test_eq_ok, hl]
    rfl
  error_iff fault := by
    simp only [walk_eq_error_iff, Direction.test_eq_ok, Direction.test_eq_error]
    rfl

/-- The result of a search downward is returned with a minus sign. -/
theorem FindsFirst.negate {d : Direction} {lands : Float → Prop} {result : Outcome Float}
    (h : s.FindsFirst d lands id result) :
    s.FindsFirst d lands (-·) (result >>= fun size => .ok (-size)) where
  ok_iff found := by
    rw [Outcome.bind_eq_ok]
    constructor
    · rintro ⟨size, hr, he⟩
      obtain ⟨k, hk, rfl, hf⟩ := (h.ok_iff size).mp hr
      exact ⟨k, hk, (Except.ok.inj he).symm, hf⟩
    · rintro ⟨k, hk, rfl, hf⟩
      exact ⟨_, (h.ok_iff _).mpr ⟨k, hk, rfl, hf⟩, rfl⟩
  error_iff fault := by
    rw [Outcome.bind_eq_error, ← h.error_iff]
    exact or_iff_left (by simp)

theorem landsAbove_iff (hs : 0 ≤ s.tolerance) (ht : Positive target) (price : Float) :
    (s.upward v target).reached price = true ∧ (s.upward v target).overshot price = false ↔
      s.LandsAbove target price := by
  simp only [upward, decide_eq_true_eq, decide_eq_false_iff_not]
  exact ⟨fun ⟨h, hc⟩ => landsAbove_of_not_lt ht hs h hc,
    fun h => ⟨h.1, fun hlt => Double.lt_irrefl (Double.lt_of_lt_of_le hlt h.2)⟩⟩

theorem landsBelow_iff (hs : 0 ≤ s.tolerance) (ht : Positive target) (price : Float) :
    (s.downward v target).reached price = true ∧ (s.downward v target).overshot price = false ↔
      s.LandsBelow target price := by
  simp only [downward, decide_eq_true_eq, decide_eq_false_iff_not]
  exact ⟨fun ⟨h, hf⟩ => landsBelow_of_not_lt ht hs h hf,
    fun h => ⟨h.1, fun hlt => Double.lt_irrefl (Double.lt_of_lt_of_le hlt h.2)⟩⟩

/-- No sum of lots is a NaN. -/
theorem nonneg_lots (hl : Positive s.lot) (k : Nat) : 0 ≤ s.lots k := by
  induction k with
  | zero => exact Double.le_refl rfl
  | succ k ih =>
    have hnext : s.lots (k + 1) = s.lot + s.lots k := by
      rw [lots, Function.iterate_succ_apply', Double.add_comm]
      rfl
    rw [hnext]
    exact Double.le_trans (Double.le_of_lt (positive_iff.mp hl).1) (hl.le_add ih)

/-- A search returns the first lot that brings the price to the target.  Below
the target it looks at purchases, above it at sales, and elsewhere nothing is
needed.  A reserve that is a number serves the sizes below it. -/
theorem sizeToTarget_finds_first (hs : s.validate = .ok ()) (ht : 0 < target)
    (hf : target.isFinite = true) (v : Venue) :
    (v.markPrice < target →
      s.FindsFirst (s.upward v target) (s.LandsAbove target) id (s.sizeToTarget v target)) ∧
    (target < v.markPrice →
      s.FindsFirst (s.downward v target) (s.LandsBelow target) (-·) (s.sizeToTarget v target)) ∧
    (¬ v.markPrice < target → ¬ target < v.markPrice → s.sizeToTarget v target = .ok 0) ∧
    ∀ k, v.reserves.base.isNaN = false →
      ((s.upward v target).Serves (s.lots k) ↔ s.lots k < v.reserves.base) := by
  obtain ⟨hlot, -, htol, -⟩ := validate_eq_ok.mp hs
  have hpos : Positive target := positive_iff.mpr ⟨ht, hf⟩
  have hguard : ¬ ((!decide (target > 0) || !target.isFinite) = true) := by simp [ht, hf]
  unfold sizeToTarget
  simp only [if_neg hguard]
  refine ⟨fun below => ?_, fun above => ?_, fun notBelow notAbove => ?_, fun k hr => ?_⟩
  · rw [if_pos below, purchaseReaches_eq_test]
    exact s.findsFirst_walk (landsAbove_iff htol hpos)
  · rw [if_neg (Double.lt_asymm above), if_pos above, saleReaches_eq_test]
    exact (s.findsFirst_walk (landsBelow_iff htol hpos)).negate
  · rw [if_neg notBelow, if_neg notAbove]
  · have hsize : (s.lots k).isNaN = false := (le_iff.mp (nonneg_lots hlot k)).2.1
    have hserves : (s.upward v target).Serves (s.lots k) ↔ ¬ v.reserves.base ≤ s.lots k := by
      simp [Direction.Serves, upward]
    rw [hserves]
    exact ⟨fun h => Double.lt_of_not_le hsize hr h,
      fun h hle => Double.lt_irrefl (Double.lt_of_lt_of_le h hle)⟩

/-- Two lots fall short and the third lands; with two steps the search is used up. -/
theorem sizeToTarget_finds_first_linear :
    let v := Venue.linear 1 0.1 ⟨1000, 10⟩
    let s : Sizing := { lot := 1, maxSteps := 3, tolerance := 0.3 }
    let brief : Sizing := { s with maxSteps := 2 }
    s.validate = .ok () ∧ s.sizeToTarget v 1.25 = .ok (s.lots 3) ∧
      brief.sizeToTarget v 1.25 = .error (.searchExhausted 2 (brief.lots 2)) := by
  intro v s brief
  obtain ⟨⟨⟩, hs⟩ := Outcome.isOk_iff.mp (by decide +kernel : s.validate.isOk = true)
  obtain ⟨⟨⟩, hbrief⟩ := Outcome.isOk_iff.mp (by decide +kernel : brief.validate.isOk = true)
  have hserves (size : Float) (h : ¬ (10 : Float) ≤ size) : (s.upward v 1.25).Serves size :=
    fun _ he => Option.some.inj he ▸ h
  have hshort : ∀ j < 2, (s.upward v 1.25).FallsShort (s.lots (j + 1)) := by
    intro j hj
    interval_cases j
    · exact ⟨hserves _ (by decide +kernel), _, rfl, by decide +kernel, by decide +kernel⟩
    · exact ⟨hserves _ (by decide +kernel), _, rfl, by decide +kernel, by decide +kernel⟩
  have hlands : (s.upward v 1.25).Reaches (s.LandsAbove 1.25) (s.lots 3) :=
    ⟨hserves _ (by decide +kernel), _, rfl, by decide +kernel, by decide +kernel⟩
  have below : v.markPrice < 1.25 := by decide
  have hfirst := (sizeToTarget_finds_first hs (by decide : (0 : Float) < 1.25) rfl v).1 below
  have hused := (sizeToTarget_finds_first hbrief (by decide : (0 : Float) < 1.25) rfl v).1 below
  exact ⟨hs, (hfirst.ok_iff _).mpr ⟨2, by decide, rfl, hlands, hshort⟩,
    (hused.error_iff _).mpr (.inl ⟨rfl, hshort⟩)⟩

end VirtualMarket.Sizing
