/-
VirtualMarket.Proofs.Market.Validity — states stay valid.

A state is tested once, when a pool is built.  Afterwards every update passes a
solve, or takes in an invariant from a band, and that is enough: an invariant
comes out only for positive finite reserves, so the price scale that entered
them is positive and finite as well.  The candidate for a new price scale, made
from an oracle price that nobody has tested, passes a solve of its own.
-/
import VirtualMarket.Proofs.Market.History
import VirtualMarket.Snapshot.Raw

namespace VirtualMarket

open Double

/-! ## Valid states -/

namespace State

theorem usable_iff {x : Float} : usable x = true ↔ Positive x := by
  rw [positive_iff, usable, Bool.and_eq_true, decide_eq_true_iff]

theorem valid_iff {s : State} :
    s.Valid ↔ Positive s.reserves.quote ∧ Positive s.reserves.base ∧ Positive s.invariant ∧
      Positive s.priceScale ∧ Positive s.totalSupply ∧ Positive s.halfLife := by
  simp [Valid, essentials, usable_iff]

/-- The test of a state accepts the valid states. -/
theorem validate_eq_ok {s : State} : s.validate = .ok () ↔ s.Valid := by
  rw [validate, Valid]
  cases h : s.essentials.find? fun entry => !usable entry.2 with
  | none =>
    rw [List.find?_eq_none] at h
    simpa using h
  | some entry =>
    have hu := List.find?_some h
    have hm := List.mem_of_find?_eq_some h
    constructor
    · intro hv
      cases hv
    · intro hv
      simp [hv entry hm] at hu

end State

/-! ## Tracking policies -/

/-- What a test against negative values lets pass. -/
def Unrefuted (x : Float) : Prop :=
  x.isNaN = true ∨ 0 ≤ x

theorem unrefuted_iff {x : Float} : Unrefuted x ↔ ¬ x < 0 := by
  constructor
  · rintro (hnan | hle) hlt
    · rw [(lt_iff.mp hlt).1] at hnan
      cases hnan
    · exact Double.lt_irrefl (Double.lt_of_lt_of_le hlt hle)
  · intro h
    cases hnan : x.isNaN with
    | true => exact .inl hnan
    | false => exact .inr (Double.le_of_not_lt hnan rfl h)

theorem Tracking.validate_eq_ok {t : Tracking} :
    t.validate = .ok () ↔ 0 < t.halfLife ∧ (Unrefuted t.minimumStep ∧ Unrefuted t.profitCushion) ∧
      0 ≤ t.tradeInterval := by
  have hneg : (t.minimumStep < 0 || t.profitCushion < 0) = true ↔
      ¬ (Unrefuted t.minimumStep ∧ Unrefuted t.profitCushion) := by
    rw [unrefuted_iff, unrefuted_iff, ← not_or, not_not]
    simp
  unfold validate
  split
  · rename_i h
    exact iff_of_false nofun fun ⟨hl, _⟩ => by simp [hl] at h
  rename_i hlife
  split
  · rename_i h
    exact iff_of_false nofun fun ⟨_, hu, _⟩ => hneg.mp h hu
  rename_i hu
  split
  · rename_i h
    exact iff_of_false nofun fun ⟨_, _, ht⟩ => absurd h (not_lt.mpr ht)
  · rename_i h
    exact iff_of_true rfl
      ⟨by simpa using hlife, not_not.mp (mt hneg.mpr hu), not_lt.mp h⟩

/-! ## One update -/

/-- The invariant that an update finds is positive and finite, and so are the
scaled reserves if it was solved. -/
theorem Curve.positive_of_unadjusted {c : Curve} {x : Reserves} {supplied : Option Float}
    {d : Float} (h : c.unadjustedInvariant x supplied = .ok d) :
    Positive d ∧ Positive (d / 2) ∧ (supplied = none → Positive x.quote ∧ Positive x.base) := by
  cases supplied with
  | none =>
    obtain ⟨hq, hb, hd, hh⟩ := Shape.positive_of_invariant h
    exact ⟨hd, hh, fun _ => ⟨hq, hb⟩⟩
  | some given =>
    obtain ⟨_, hg, h⟩ := Outcome.bind_eq_ok.mp h
    cases h
    obtain ⟨hd, hh⟩ := positive_of_invariantBand (guardBand_eq_ok.mp hg)
    exact ⟨hd, hh, fun hn => by cases hn⟩

/-- A candidate for the price scale is positive and finite once an invariant is
found for it. -/
theorem State.positive_candidatePeg {c : Curve} {s : State} {d : Float}
    (hb : Positive s.reserves.base) (hs : Positive s.priceScale)
    (h : c.invariant s.candidateReserves = .ok d) : Positive s.candidatePeg := by
  obtain ⟨-, hx, -⟩ := Shape.positive_of_invariant h
  have hm : Positive (s.scaledReserves.base * s.candidatePeg) := hx.of_div_right hs.unsigned
  exact (hm.of_mul_left (hb.mul_unsigned hs.unsigned)).2

/-- An update of positive finite reserves gives a valid state. -/
theorem Curve.Updates.valid {c : Curve} {s s' : State} {tradePrice supplied : Option Float}
    {now : Int} {move : PegMove} (h : c.Updates s tradePrice supplied now move s')
    (hq : Positive s.reserves.quote) (hb : Positive s.reserves.base)
    (hs : Positive s.priceScale) (ht : Positive s.totalSupply) (hl : Positive s.halfLife) :
    s'.Valid := by
  obtain ⟨oracle, time, ho⟩ := s.advanceOracle_frame now
  rw [State.valid_iff]
  cases h with
  | unchanged found | discarded found =>
    obtain ⟨hd, -⟩ := positive_of_unadjusted found.invariant
    rw [ho]
    exact ⟨hq, hb, hd, hs, ht, hl⟩
  | moved found wants solved keeps =>
    obtain ⟨-, -, hd, -⟩ := Shape.positive_of_invariant solved
    have hp := State.positive_candidatePeg (by rwa [ho]) (by rwa [ho]) solved
    rw [ho] at hp ⊢
    exact ⟨hq, hb, hd, hp, ht, hl⟩

/-! ## Changes -/

/-- The reserves after a change are positive and finite. -/
theorem Change.Sound.positive_reserves {c : Curve} {u : Change} (h : u.Sound c)
    (hv : u.before.Valid) : Positive u.after.reserves.quote ∧ Positive u.after.reserves.base := by
  obtain ⟨hq, hb, -, hs, -⟩ := State.valid_iff.mp hv
  obtain ⟨⟨tradePrice, now, hu⟩, hr⟩ := h
  rcases hr with hn | hr
  · obtain ⟨d, _, _, _, found⟩ := hu.finds
    obtain ⟨hq, hx⟩ := (Curve.positive_of_unadjusted found.invariant).2.2 hn
    exact ⟨hq, (hx.of_mul_right hs.unsigned).1⟩
  · rw [hr]
    exact ⟨hq, hb⟩

/-- A change leads from a valid state to a valid state. -/
theorem Change.Sound.valid {c : Curve} {u : Change} (h : u.Sound c) (hv : u.before.Valid) :
    u.after.Valid := by
  obtain ⟨hq, hb⟩ := h.positive_reserves hv
  obtain ⟨-, -, -, hs, ht, hl⟩ := State.valid_iff.mp hv
  obtain ⟨⟨tradePrice, now, hu⟩, -⟩ := h
  exact hu.valid hq hb hs ht hl

/-! ## Runs -/

namespace Pool

/-- The pools that come out of the three ways to build one. -/
inductive Built : Pool → Prop
  | ofState {curve : Curve} {tracking : Tracking} {state : State} {p : Pool}
      (h : ofState curve tracking state = .ok p) : Built p
  | bootstrap {curve : Curve} {tracking : Tracking} {reserves : Reserves} {priceScale : Float}
      {now : Int} {p : Pool} (h : bootstrap curve tracking reserves priceScale now = .ok p) :
      Built p
  | ofSnapshot {curve : Curve} {tracking : Tracking} {raw : RawSnapshot} {p : Pool}
      (h : ofSnapshot curve tracking raw = .ok p) : Built p

section

variable {curve : Curve} {tracking : Tracking} {p : Pool}

theorem ofState_eq_ok {state : State} : ofState curve tracking state = .ok p ↔
    curve.validate = .ok () ∧ tracking.validate = .ok () ∧ state.Valid ∧
      p = ⟨curve, tracking, state⟩ := by
  constructor
  · intro h
    obtain ⟨_, hc, h⟩ := Outcome.bind_eq_ok.mp h
    obtain ⟨_, ht, h⟩ := Outcome.bind_eq_ok.mp h
    obtain ⟨_, hv, h⟩ := Outcome.bind_eq_ok.mp h
    exact ⟨hc, ht, State.validate_eq_ok.mp hv, (Except.ok.inj h).symm⟩
  · rintro ⟨hc, ht, hv, rfl⟩
    rw [ofState, hc, ht, State.validate_eq_ok.mpr hv]
    rfl

theorem bootstrap_eq_ok {reserves : Reserves} {priceScale : Float} {now : Int} :
    bootstrap curve tracking reserves priceScale now = .ok p ↔
      curve.validate = .ok () ∧ tracking.validate = .ok () ∧
        ∃ d, curve.invariant (reserves.scaled priceScale) = .ok d ∧
          (depositState tracking reserves d priceScale now).Valid ∧
            p = ⟨curve, tracking, depositState tracking reserves d priceScale now⟩ := by
  constructor
  · intro h
    obtain ⟨-, -, h⟩ := Outcome.bind_eq_ok.mp h
    obtain ⟨d, hd, h⟩ := Outcome.bind_eq_ok.mp h
    obtain ⟨hc, ht, hv, hp⟩ := ofState_eq_ok.mp h
    exact ⟨hc, ht, d, hd, hv, hp⟩
  · rintro ⟨hc, ht, d, hd, hv, hp⟩
    exact Outcome.bind_eq_ok.mpr ⟨(), hc, Outcome.bind_eq_ok.mpr
      ⟨d, hd, ofState_eq_ok.mpr ⟨hc, ht, hv, hp⟩⟩⟩

end

theorem valid_of_ofState {curve : Curve} {tracking : Tracking} {state : State} {p : Pool}
    (h : ofState curve tracking state = .ok p) : p.state.Valid := by
  obtain ⟨-, -, hv, rfl⟩ := ofState_eq_ok.mp h
  exact hv

theorem Built.valid {p : Pool} (h : p.Built) : p.state.Valid := by
  cases h with
  | ofState h => exact valid_of_ofState h
  | bootstrap h =>
    obtain ⟨-, -, d, -, hv, rfl⟩ := bootstrap_eq_ok.mp h
    exact hv
  | ofSnapshot h =>
    obtain ⟨state, -, h⟩ := Outcome.bind_eq_ok.mp h
    exact valid_of_ofState h

/-- A run from a valid state stays among valid states. -/
theorem valid_run {p : Pool} (hp : p.state.Valid) (ops : List Operation) :
    (p.run ops).2.state.Valid ∧ ∀ u ∈ p.history ops, u.before.Valid :=
  run_induction hp (fun _ hu => hu.valid) ops

/-- Every state along a run of a pool that was built is valid, and would pass
the test that was made when the pool was built.  The states along a run are
those after its first `n` operations. -/
theorem valid_along_run {p : Pool} (hp : p.Built) (ops : List Operation) (n : Nat) :
    (p.run (ops.take n)).2.state.Valid ∧ (p.run (ops.take n)).2.state.validate = .ok () := by
  have h := (valid_run hp.valid (ops.take n)).1
  exact ⟨h, State.validate_eq_ok.mpr h⟩

theorem built_even : even.Built := by
  have h : ofState {} {} even.state = .ok even := by rfl
  exact .ofState h

/-- A run that sells, fails to sell and then updates with an invariant handed in. -/
theorem valid_along_run_even :
    let ops : List Operation := [.sell 1 0 none, .sell 1 1e9 none, .update none (some 2000) 0]
    (even.run (ops.take 2)).2.state.Valid ∧ (even.run (ops.take 2)).2.state.validate = .ok () :=
  valid_along_run built_even _ 2

end Pool

end VirtualMarket
