/-
VirtualMarket.Proofs.Curve.Symmetry — the curve does not know which asset is which.

Sums and products of doubles depend on the order of their operands, and so does every
one of the estimates of a search.  The solver of the invariant therefore puts the
larger reserve first, after which nothing tells the assets apart: neither an answer
nor the value inside a fault.  Only reserves that cannot be put in order, of which one
is a NaN or which are zeros of opposite signs, show which of them came first.
-/
import VirtualMarket.Proofs.Curve.Guards

namespace VirtualMarket

open Double

variable {x : Reserves} {s : Shape}

namespace Reserves

/-- The reserves with the assets exchanged. -/
def swap (x : Reserves) : Reserves :=
  ⟨x.base, x.quote⟩

/-- Neither reserve is a NaN, and they are not both zero. -/
structure Comparable (x : Reserves) : Prop where
  quote : x.quote.isNaN = false
  base : x.base.isNaN = false
  nonzero : ¬ ((x.quote == 0) = true ∧ (x.base == 0) = true)

/-- Reserves of which neither is the smaller are the same, or cannot be compared. -/
theorem Comparable.eq_of_not_lt (h : x.Comparable) (hqb : ¬ x.quote < x.base)
    (hbq : ¬ x.base < x.quote) : x.quote = x.base := by
  have hle := Double.le_of_not_lt h.quote h.base hqb
  have heq : (x.quote == x.base) = true := (Double.le_iff_beq_or_lt.mp hle).resolve_right hbq
  refine Double.eq_of_beq heq fun hq => h.nonzero ⟨hq, ?_⟩
  exact beq_iff.mpr ⟨h.base, rfl, (beq_iff.mp heq).2.2.symm.trans (beq_iff.mp hq).2.2⟩

/-- The larger and the smaller reserve are the same the other way round. -/
theorem Comparable.sorted_swap (h : x.Comparable) :
    x.swap.larger = x.larger ∧ x.swap.smaller = x.smaller := by
  unfold larger smaller swap
  by_cases hqb : x.quote < x.base
  · simp [hqb, Double.lt_asymm hqb]
  · by_cases hbq : x.base < x.quote
    · simp [hqb, hbq]
    · simp [h.eq_of_not_lt hqb hbq]

theorem comparable_of_lt (h : x.quote < x.base ∨ x.base < x.quote) : x.Comparable := by
  have hne := Double.not_beq_of_lt h
  have hnan : x.quote.isNaN = false ∧ x.base.isNaN = false := by
    rcases h with h | h
    · exact ⟨(lt_iff.mp h).1, (lt_iff.mp h).2.1⟩
    · exact ⟨(lt_iff.mp h).2.1, (lt_iff.mp h).1⟩
  refine ⟨hnan.1, hnan.2, fun hzero => hne (beq_iff.mpr ⟨hnan.1, hnan.2, ?_⟩)⟩
  exact (beq_iff.mp hzero.1).2.2.trans (beq_iff.mp hzero.2).2.2.symm

end Reserves

namespace Shape

open Reserves

/-! ## The invariant -/

theorem invariantWithin_swap (h : x.Comparable) (s : Shape) (budget : Nat) :
    s.invariantWithin x.swap budget = s.invariantWithin x budget := by
  obtain ⟨hlarger, hsmaller⟩ := h.sorted_swap
  rw [invariantWithin_eq, invariantWithin_eq, guards, guards, hlarger, hsmaller]

/-- A larger reserve is blamed if it lies outside its band, once the constants have
passed, and in no other case. -/
theorem invariant_eq_larger_iff (hs : s.guarded = .ok ()) {v : Float} :
    s.invariant x = .error (.unsafeParameter .largerReserve v) ↔
      Band.largerReserve.contains x.larger = false ∧ x.larger = v := by
  constructor
  · intro h
    rw [invariant, invariantWithin_eq] at h
    rcases Outcome.bind_eq_error.mp h with h | ⟨_, -, h⟩
    · cases guards_eq_error.mp h with
      | larger _ out => exact ⟨out, rfl⟩
    · -- a search blames no parameter
      have hc := Newton.run_cases .invariant (s.invariantStep x.larger x.smaller)
        Newton.stepLimit (2 * geometricMean x.larger x.smaller)
      rw [h] at hc
      obtain hc | ⟨estimate, hc⟩ := hc
      · cases hc
      · obtain ⟨d, hd⟩ := eq_of_invariantStep_done hc
        unfold acceptInvariant at hd
        split_ifs at hd <;> cases hd
  · rintro ⟨out, rfl⟩
    rw [invariant, invariantWithin_eq, guards_eq_error.mpr (.larger hs out)]
    rfl

/-- Two reserves in no order, of which the first is blamed, are not blamed alike the
other way round unless they are the same. -/
theorem eq_of_invariant_swap (hs : s.guarded = .ok ()) (hqb : ¬ x.quote < x.base)
    (hbq : ¬ x.base < x.quote) (hout : Band.largerReserve.contains x.quote = false)
    (h : s.invariant x.swap = s.invariant x) : x.quote = x.base := by
  have hfirst : x.larger = x.quote := if_neg hqb
  have hsecond : x.swap.larger = x.base := if_neg hbq
  have hblame := (invariant_eq_larger_iff (x := x) hs).mpr ⟨hfirst ▸ hout, rfl⟩
  rw [← h, invariant_eq_larger_iff hs, hsecond, hfirst] at hblame
  exact hblame.2.symm

/-- The conditions on the reserves cannot be dropped: where the constants are in
their bands, the invariant is the same both ways for comparable reserves and for equal
ones, and for no others. -/
theorem invariant_swap_iff (hs : s.guarded = .ok ()) :
    s.invariant x.swap = s.invariant x ↔ x.quote = x.base ∨ x.Comparable := by
  constructor
  · intro h
    by_cases hlt : x.quote < x.base ∨ x.base < x.quote
    · exact .inr (comparable_of_lt hlt)
    · obtain ⟨hqb, hbq⟩ := not_or.mp hlt
      refine .inl ?_
      cases hq : Band.largerReserve.contains x.quote with
      | false => exact eq_of_invariant_swap hs hqb hbq hq h
      | true =>
        cases hb : Band.largerReserve.contains x.base with
        | false => exact (eq_of_invariant_swap (x := x.swap) hs hbq hqb hb h.symm).symm
        | true =>
          have hpos := positive_iff.mp (positive_of_largerReserve hq)
          have hc : x.Comparable :=
            ⟨(positive_of_largerReserve hq).unsigned.isNaN,
              (positive_of_largerReserve hb).unsigned.isNaN,
              fun hzero => Double.not_beq_of_lt (.inr hpos.1) hzero.1⟩
          exact hc.eq_of_not_lt hqb hbq
  · rintro (h | h)
    · obtain ⟨q, b⟩ := x
      obtain rfl : q = b := h
      rfl
    · exact invariantWithin_swap h s _

/-! ## The reserve -/

/-- What is solved for depends on the reserve that is known, and on nothing else of
the reserves. -/
theorem reserve_congr {y : Reserves} {a b : Asset} (h : x.amount a.other = y.amount b.other)
    (s : Shape) (d : Float) : s.reserve x d a = s.reserve y d b := by
  unfold reserve
  rw [h]

/-- The curve does not know which asset is which.  The invariant of two reserves that
are no NaN and not both zero is the same both ways, to the last bit and to the value
inside a fault; and a reserve that is solved for depends on the other reserve alone,
whichever of them is which, and not on what is stored in its own place. -/
theorem assets_are_alike (s : Shape) :
    (∀ u v, u.isNaN = false → v.isNaN = false → ¬ ((u == 0) = true ∧ (v == 0) = true) →
      s.invariant ⟨u, v⟩ = s.invariant ⟨v, u⟩) ∧
    ∀ w w' v d, s.reserve ⟨w, v⟩ d .quote = s.reserve ⟨v, w'⟩ d .base :=
  ⟨fun u v hu hv hzero => (invariantWithin_swap (x := ⟨u, v⟩) ⟨hu, hv, hzero⟩ s _).symm,
    fun _ _ _ => reserve_congr rfl s⟩

/-- Reserves with an invariant, and reserves that are blamed. -/
theorem assets_are_alike_near :
    let s : Shape := {}
    (s.invariant ⟨1000, 1001⟩).isOk = true ∧
      s.invariant ⟨1000, 1001⟩ = s.invariant ⟨1001, 1000⟩ ∧
      (s.invariant ⟨-3, 1 / 0⟩).isOk = false ∧
      s.invariant ⟨-3, 1 / 0⟩ = s.invariant ⟨1 / 0, -3⟩ := by
  intro s
  obtain ⟨hswap, -⟩ := assets_are_alike s
  exact ⟨by decide +kernel, hswap _ _ (by decide +kernel) (by decide +kernel) (by decide +kernel),
    by decide +kernel, hswap _ _ (by decide +kernel) (by decide +kernel) (by decide +kernel)⟩

end Shape

end VirtualMarket
