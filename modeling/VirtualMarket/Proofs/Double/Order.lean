/-
VirtualMarket.Proofs.Double.Order — doubles are ordered like extended reals.

A double that is no NaN has a value among the extended reals, and `<` and `≤`
on doubles say what they say there.  For two finite doubles the comparison is
of exponents first and of mantissas second; that this is the order of their
values is what the grid of doubles is for.  Doubles of one value are one double,
but for the two zeros.
-/
import VirtualMarket.Proofs.Double.Grid

namespace VirtualMarket.Double

open Float.Model
open Float.Model.UnpackedFloat

/-! ## Values -/

/-- The value of a number taken apart; that of a NaN means nothing. -/
noncomputable def valueOf : UnpackedFloat → EReal
  | .notANumber => 0
  | .infinity .positive => ⊤
  | .infinity .negative => ⊥
  | .zero _ => 0
  | .finite .positive m e _ => (dyadic m e : ℝ)
  | .finite .negative m e _ => (-dyadic m e : ℝ)

/-- The value of a double. -/
noncomputable def value (x : Float) : EReal :=
  valueOf (view x)

/-! ## Comparison of parts -/

/-- Neither NaN nor, being finite, off the grid. -/
def Regular : UnpackedFloat → Prop
  | .notANumber => False
  | .finite _ m e _ => OnGrid m e
  | _ => True

theorem regular_view {x : Float} (h : x.isNaN = false) : Regular (view x) := by
  cases hv : view x with
  | notANumber =>
    change (view x).isNaN = false at h
    rw [hv] at h
    cases h
  | infinity s => trivial
  | zero s => trivial
  | finite s m e h => exact (onGrid_of_view hv).1

/-- Finite parts are compared by their values. -/
theorem compare_finite {s s' : Sign} {m m' : Nat} {e e' : Int} {h : 0 < m} {h' : 0 < m'}
    (hg : OnGrid m e) (hg' : OnGrid m' e') :
    (UnpackedFloat.finite s m e h).compare (.finite s' m' e' h') =
      some (cmp (valueOf (.finite s m e h)) (valueOf (.finite s' m' e' h'))) := by
  have hc := compare_dyadic hg hg'
  have hp := dyadic_pos h e
  have hp' := dyadic_pos h' e'
  have hn : StrictAnti fun r : ℝ => -r := fun _ _ => neg_lt_neg
  cases s <;> cases s' <;>
    simp only [UnpackedFloat.compare, valueOf, EReal.coe_strictMono.cmp_map_eq, Option.some.injEq]
  · rw [hc, ← cmp_eq_compare, cmp_swap, hn.cmp_map_eq]
  · exact ((cmp_eq_lt_iff _ _).mpr (by linarith)).symm
  · exact ((cmp_eq_gt_iff _ _).mpr (by linarith)).symm
  · rw [hc, cmp_eq_compare]

/-- Parts are compared by their values. -/
theorem compare_eq_cmp {a b : UnpackedFloat} (ha : Regular a) (hb : Regular b) :
    a.compare b = some (cmp (valueOf a) (valueOf b)) := by
  rcases a with s | _ | s | ⟨s, m, e, h⟩ <;> rcases b with s' | _ | s' | ⟨s', m', e', h'⟩
  case finite.finite => exact compare_finite ha hb
  all_goals first | exact ha.elim | exact hb.elim | cases s <;> try cases s'
  all_goals
    simp only [UnpackedFloat.compare, valueOf, Option.some.injEq, cmp_self_eq_eq] <;>
    first
      | rfl
      | exact ((cmp_eq_lt_iff _ _).mpr (by simp [dyadic_pos, *])).symm
      | exact ((cmp_eq_gt_iff _ _).mpr (by simp [dyadic_pos, *])).symm

/-- Parts are told apart by their values, the two zeros excepted. -/
theorem eq_of_valueOf {a b : UnpackedFloat} (ha : Regular a) (hb : Regular b)
    (h : valueOf a = valueOf b) (h0 : valueOf a ≠ 0) : a = b := by
  rcases a with s | _ | s | ⟨s, m, e, hm⟩ <;> rcases b with s' | _ | s' | ⟨s', m', e', hm'⟩
  case finite.finite =>
    have hp := dyadic_pos hm e
    have hp' := dyadic_pos hm' e'
    cases s <;> cases s' <;> simp only [valueOf, EReal.coe_eq_coe_iff] at h
    case positive.positive =>
      obtain ⟨rfl, rfl⟩ := ha.eq_of_dyadic hb h
      rfl
    case negative.negative =>
      obtain ⟨rfl, rfl⟩ := ha.eq_of_dyadic hb (neg_injective h)
      rfl
    all_goals linarith
  case infinity.infinity => cases s <;> cases s' <;> first | rfl | cases h
  case infinity.finite =>
    cases s <;> cases s' <;> simp only [valueOf, EReal.top_ne_coe, EReal.bot_ne_coe] at h
  case finite.infinity =>
    cases s <;> cases s' <;> simp only [valueOf, EReal.coe_ne_top, EReal.coe_ne_bot] at h
  all_goals first | exact ha.elim | exact hb.elim | exact absurd rfl h0 | exact absurd h h0

/-! ## Order of doubles -/

theorem isNaN_eq_false_iff {x : Float} : x.isNaN = false ↔ view x ≠ .notANumber := by
  change (view x).isNaN = false ↔ _
  cases view x <;> simp [UnpackedFloat.isNaN]

theorem compare_view {x y : Float} (hx : x.isNaN = false) (hy : y.isNaN = false) :
    (view x).compare (view y) = some (cmp (value x) (value y)) :=
  compare_eq_cmp (regular_view hx) (regular_view hy)

/-- A comparison that holds has no NaN on either side. -/
theorem isNaN_of_compare {x y : Float} {o : Ordering}
    (h : (view x).compare (view y) = some o) : x.isNaN = false ∧ y.isNaN = false := by
  rw [isNaN_eq_false_iff, isNaN_eq_false_iff]
  constructor
  · intro hx
    simp [hx, UnpackedFloat.compare] at h
  · intro hy
    rw [hy] at h
    cases hx : view x <;> rw [hx] at h <;> simp [UnpackedFloat.compare] at h

theorem lt_iff {x y : Float} :
    x < y ↔ x.isNaN = false ∧ y.isNaN = false ∧ value x < value y := by
  have hd : x < y ↔ (view x).compare (view y) = some .lt := by
    change decide _ = true ↔ _
    rw [decide_eq_true_iff]
    change ((view x).compare (view y) == some .lt) = true ↔ _
    rw [beq_iff_eq]
  rw [hd]
  constructor
  · intro h
    obtain ⟨hx, hy⟩ := isNaN_of_compare h
    rw [compare_view hx hy, Option.some.injEq, cmp_eq_lt_iff] at h
    exact ⟨hx, hy, h⟩
  · rintro ⟨hx, hy, h⟩
    rw [compare_view hx hy, (cmp_eq_lt_iff _ _).mpr h]

theorem le_iff {x y : Float} :
    x ≤ y ↔ x.isNaN = false ∧ y.isNaN = false ∧ value x ≤ value y := by
  have hd : x ≤ y ↔ ((view x).compare (view y)).any (·.isLE) = true := by
    change decide _ = true ↔ _
    rw [decide_eq_true_iff]
    rfl
  rw [hd]
  constructor
  · intro h
    cases ho : (view x).compare (view y) with
    | none => simp [ho] at h
    | some o =>
      obtain ⟨hx, hy⟩ := isNaN_of_compare ho
      refine ⟨hx, hy, not_lt.mp fun hlt => ?_⟩
      rw [compare_view hx hy, (cmp_eq_gt_iff _ _).mpr hlt] at h
      simp at h
  · rintro ⟨hx, hy, h⟩
    rw [compare_view hx hy, Option.any_some, Ordering.isLE_iff_ne_gt, cmp_eq_gt_iff]
    exact not_lt.mpr h

theorem beq_iff {x y : Float} :
    (x == y) = true ↔ x.isNaN = false ∧ y.isNaN = false ∧ value x = value y := by
  have hd : (x == y) = true ↔ (view x).compare (view y) = some .eq := by
    change ((view x).compare (view y) == some .eq) = true ↔ _
    rw [beq_iff_eq]
  rw [hd]
  constructor
  · intro h
    obtain ⟨hx, hy⟩ := isNaN_of_compare h
    rw [compare_view hx hy, Option.some.injEq, cmp_eq_eq_iff] at h
    exact ⟨hx, hy, h⟩
  · rintro ⟨hx, hy, h⟩
    rw [compare_view hx hy, (cmp_eq_eq_iff _ _).mpr h]

/-- Doubles that compare equal are one double, unless they are zeros. -/
protected theorem eq_of_beq {x y : Float} (h : (x == y) = true) (h0 : ¬ (x == 0) = true) :
    x = y := by
  obtain ⟨hx, hy, hvalue⟩ := beq_iff.mp h
  have hne : value x ≠ 0 := fun hzero => h0 (beq_iff.mpr ⟨hx, rfl, hzero⟩)
  rw [← ofView_view x, ← ofView_view y,
    eq_of_valueOf (regular_view hx) (regular_view hy) hvalue hne]

protected theorem le_trans {x y z : Float} (h : x ≤ y) (h' : y ≤ z) : x ≤ z := by
  obtain ⟨hx, -, hxy⟩ := le_iff.mp h
  obtain ⟨-, hz, hyz⟩ := le_iff.mp h'
  exact le_iff.mpr ⟨hx, hz, hxy.trans hyz⟩

protected theorem lt_of_lt_of_le {x y z : Float} (h : x < y) (h' : y ≤ z) : x < z := by
  obtain ⟨hx, -, hxy⟩ := lt_iff.mp h
  obtain ⟨-, hz, hyz⟩ := le_iff.mp h'
  exact lt_iff.mpr ⟨hx, hz, hxy.trans_le hyz⟩

protected theorem lt_of_le_of_lt {x y z : Float} (h : x ≤ y) (h' : y < z) : x < z := by
  obtain ⟨hx, -, hxy⟩ := le_iff.mp h
  obtain ⟨-, hz, hyz⟩ := lt_iff.mp h'
  exact lt_iff.mpr ⟨hx, hz, hxy.trans_lt hyz⟩

protected theorem lt_irrefl {x : Float} : ¬ x < x := fun h =>
  lt_irrefl _ (lt_iff.mp h).2.2

protected theorem lt_asymm {x y : Float} (h : x < y) : ¬ y < x := fun h' =>
  lt_asymm (lt_iff.mp h).2.2 (lt_iff.mp h').2.2

/-- What is below or above a double does not equal it. -/
protected theorem not_beq_of_lt {x y : Float} (h : x < y ∨ y < x) : ¬ (x == y) = true := by
  intro he
  have hv := (beq_iff.mp he).2.2
  rcases h with h | h
  · exact (lt_iff.mp h).2.2.ne hv
  · exact (lt_iff.mp h).2.2.ne' hv

protected theorem le_of_lt {x y : Float} (h : x < y) : x ≤ y := by
  obtain ⟨hx, hy, hxy⟩ := lt_iff.mp h
  exact le_iff.mpr ⟨hx, hy, hxy.le⟩

theorem isNaN_right_of_lt {x y : Float} (h : x < y) : y.isNaN = false :=
  (lt_iff.mp h).2.1

theorem isNaN_right_of_le {x y : Float} (h : x ≤ y) : y.isNaN = false :=
  (le_iff.mp h).2.1

protected theorem le_iff_beq_or_lt {x y : Float} : y ≤ x ↔ (x == y) = true ∨ y < x := by
  rw [le_iff, beq_iff, lt_iff, le_iff_eq_or_lt, eq_comm]
  tauto

protected theorem le_refl {x : Float} (h : x.isNaN = false) : x ≤ x :=
  le_iff.mpr ⟨h, h, le_rfl⟩

/-- Of two doubles that are no NaN, one is at most the other. -/
protected theorem le_of_not_lt {x y : Float} (hx : x.isNaN = false) (hy : y.isNaN = false)
    (h : ¬ x < y) : y ≤ x :=
  le_iff.mpr ⟨hy, hx, not_lt.mp fun hlt => h (lt_iff.mpr ⟨hx, hy, hlt⟩)⟩

protected theorem lt_of_not_le {x y : Float} (hx : x.isNaN = false) (hy : y.isNaN = false)
    (h : ¬ y ≤ x) : x < y :=
  lt_iff.mpr ⟨hx, hy, not_le.mp fun hle => h (le_iff.mpr ⟨hy, hx, hle⟩)⟩

protected theorem le_of_not_le {x y : Float} (hx : x.isNaN = false) (hy : y.isNaN = false)
    (h : ¬ x ≤ y) : y ≤ x :=
  Double.le_of_not_lt hx hy fun hlt => h (Double.le_of_lt hlt)

/-- Infinity is above everything but a NaN. -/
theorem le_infinity {x z : Float} (hx : x.isNaN = false) (hz : view z = .infinity .positive) :
    x ≤ z := by
  refine le_iff.mpr ⟨hx, isNaN_eq_false_iff.mpr (by simp [hz]), ?_⟩
  rw [value.eq_def z, hz]
  exact le_top

theorem min_cases (x y : Float) : (min x y = x ∧ x ≤ y) ∨ (min x y = y ∧ ¬ x ≤ y) := by
  change ((if x ≤ y then x else y) = x ∧ x ≤ y) ∨ ((if x ≤ y then x else y) = y ∧ ¬ x ≤ y)
  split <;> simp [*]

end VirtualMarket.Double
