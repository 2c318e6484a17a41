/-
VirtualMarket.Proofs.Double.Rounding — the model of a double rounds reals.

The model keeps a mantissa with a round bit and a sticky bit, which stand for a
real exactly enough, shifts it to the grid around that real, and rounds.  A
mantissa that rounding has carried to 54 bits is shifted once more.
-/
import VirtualMarket.Proofs.Double.Sign

namespace VirtualMarket.Double

open Float.Model
open Float.Model.UnpackedFloat

/-! ## Mantissas with residual bits -/

/-- What the two residual bits tell about the real a mantissa stands for. -/
structure Represents (em : ExtendedMantissa) (r : ℝ) : Prop where
  floor : ⌊r⌋ = em.mantissa
  round : em.roundBit = true ↔ 1 / 2 ≤ Int.fract r
  sticky : em.stickyBit = true ↔ Int.fract r ≠ 0 ∧ Int.fract r ≠ 1 / 2

theorem Represents.roundedMantissa {em : ExtendedMantissa} {r : ℝ} (h : Represents em r) :
    (em.roundedMantissa : ℤ) = nearestEven r := by
  obtain ⟨hf, hr, hs⟩ := h
  obtain ⟨m, rb, sb⟩ := em
  dsimp only at hf hr hs
  have h0 := Int.fract_nonneg r
  unfold nearestEven
  rw [hf]
  cases rb <;> cases sb <;>
    simp only [true_iff, false_iff, not_le, Bool.false_eq_true, not_and_or, not_not] at hr hs
  · rw [if_pos hr]
    rfl
  · rw [if_pos hr]
    rfl
  · have he : Int.fract r = 1 / 2 := hs.resolve_left (by linarith)
    rw [if_neg (not_lt.mpr hr), if_pos he]
    rfl
  · rw [if_neg (not_lt.mpr hr), if_neg hs.2]
    rfl

/-- Halving a real: the last bit of its floor becomes the first of its
fraction. -/
theorem floor_fract_half {r : ℝ} {m : ℕ} (h : ⌊r⌋ = (m : ℤ)) :
    ⌊r / 2⌋ = (m / 2 : ℕ) ∧ Int.fract (r / 2) = ((m % 2 : ℕ) + Int.fract r) / 2 := by
  have hfl : ⌊r / 2⌋ = (m / 2 : ℕ) := by
    have := Int.floor_div_natCast r 2
    rw [h] at this
    exact_mod_cast this
  have hr := Int.floor_add_fract r
  have hr' := Int.floor_add_fract (r / 2)
  have hm : (m : ℝ) = 2 * (m / 2 : ℕ) + (m % 2 : ℕ) := by
    exact_mod_cast (Nat.div_add_mod m 2).symm
  rw [h, Int.cast_natCast] at hr
  rw [hfl, Int.cast_natCast] at hr'
  exact ⟨hfl, by linarith⟩

/-- One shift to the right halves the real. -/
theorem Represents.shiftRightOne {em : ExtendedMantissa} {r : ℝ} (h : Represents em r) :
    Represents em.shiftRightOne (r / 2) := by
  obtain ⟨hf, hr, hs⟩ := h
  obtain ⟨m, rb, sb⟩ := em
  dsimp only at hf hr hs
  have h0 := Int.fract_nonneg r
  have h1 := Int.fract_lt_one r
  obtain ⟨hfl, hfr⟩ := floor_fract_half hf
  -- what was behind the bit shifted out is sticky now
  have hb : (rb || sb) = true ↔ Int.fract r ≠ 0 := by
    rw [Bool.or_eq_true, hr, hs]
    constructor
    · rintro (h | h)
      · linarith
      · exact h.1
    · intro h
      by_cases he : 1 / 2 ≤ Int.fract r
      · exact .inl he
      · exact .inr ⟨h, fun h' => he h'.ge⟩
  refine ⟨hfl, ?_, ?_⟩ <;> rw [hfr] <;> dsimp only [ExtendedMantissa.shiftRightOne]
  · rcases Nat.mod_two_eq_zero_or_one m with h2 | h2 <;> rw [h2]
    · simp only [bne_self_eq_false, Bool.false_eq_true, false_iff, not_le]
      push_cast
      linarith
    · simp only [Nat.reduceBNe, true_iff]
      push_cast
      linarith
  · rw [hb]
    rcases Nat.mod_two_eq_zero_or_one m with h2 | h2 <;> rw [h2] <;> push_cast
    · constructor
      · intro h
        exact ⟨by simpa using h, by linarith⟩
      · rintro ⟨h, -⟩ he
        simp [he] at h
    · constructor
      · intro h
        refine ⟨by linarith, fun he => h (by linarith)⟩
      · rintro ⟨-, h⟩ he
        simp [he] at h

theorem Represents.shiftRight {em : ExtendedMantissa} {r : ℝ} (h : Represents em r) (n : ℕ) :
    Represents (em >>> n) (r / 2 ^ n) := by
  induction n with
  | zero =>
    rw [pow_zero, div_one]
    exact h
  | succ n ih =>
    rw [pow_succ, ← div_div]
    exact ih.shiftRightOne

/-! ## The model's rounding -/

/-- Parts with the magnitude of a rounded positive real. -/
inductive Rounds (r : ℝ) : UnpackedFloat → Prop
  | zero (s : Sign) (h : rounded r = 0) : Rounds r (.zero s)
  | finite (s : Sign) {m : Nat} {e : Int} (h : 0 < m) (hg : OnGrid m e)
      (hr : dyadic m e = rounded r) : Rounds r (.finite s m e h)

/-- A mantissa and an exponent as parts, the mantissa being zero or not. -/
def partsOf (s : Sign) (m : Nat) (e : Int) : UnpackedFloat :=
  if h : m = 0 then .zero s else .finite s m e (Nat.pos_of_ne_zero h)

theorem roundWithAccuracy_eq (s : Sign) (m : Nat) (e : Int) (a : Accuracy) :
    roundWithAccuracy .binary64 s m e a =
      let first := shiftToTargetExponent .binary64 m e a
      let last := shiftToTargetExponent .binary64 first.1.roundedMantissa first.2 .exact
      partsOf s last.1.mantissa last.2 := rfl

theorem targetExponent_binary64 (m : Nat) (e : Int) :
    Format.binary64.targetExponent (totalExponent m e) = max (m.log2 + e - 52) (-1074) := by
  have hb : ((Format.binary64.mantissaBits : Nat) : Int) = 53 := rfl
  have hm : Format.binary64.minExponent = -1074 := by decide
  rw [Format.targetExponent, totalExponent, hb, hm]
  omega

/-- Shifting to the target exponent is shifting by as many places as it is away. -/
theorem shiftToTargetExponent_eq {m : Nat} {e : Int} (a : Accuracy) {n : Nat}
    (h : (max (m.log2 + e - 52) (-1074) - e).toNat = n) :
    shiftToTargetExponent .binary64 m e a =
      (ExtendedMantissa.ofMantissaAndAccuracy m a >>> n, e + n) := by
  simp only [shiftToTargetExponent, targetExponent_binary64, shiftToExponent, h]

/-- From a mantissa with bits enough the model finds the grid around a real. -/
theorem gridExponent_eq {r : ℝ} (hr : 0 < r) {m : Nat} {e : Int} (hf : ⌊r / 2 ^ e⌋ = (m : ℤ))
    (he : e ≤ gridExponent r) : max (m.log2 + e - 52) (-1074) = gridExponent r := by
  have hp : (0 : ℝ) < 2 ^ e := by positivity
  obtain ⟨hle, hlt⟩ := Int.floor_eq_iff.mp hf
  rw [Int.cast_natCast, le_div_iff₀ hp] at hle
  rw [Int.cast_natCast, div_lt_iff₀ hp] at hlt
  rcases Nat.eq_zero_or_pos m with rfl | hm
  · have : Int.log 2 r < e := by
      rw [← Int.lt_zpow_iff_log_lt (by norm_num) hr, Nat.cast_ofNat]
      simpa using hlt
    unfold gridExponent at he ⊢
    rw [Nat.log2_zero]
    omega
  · have hlow : Int.log 2 (dyadic m e) ≤ Int.log 2 r :=
      Int.log_mono_right (dyadic_pos hm e) hle
    have hhigh : Int.log 2 r < m.log2 + 1 + e := by
      rw [← Int.lt_zpow_iff_log_lt (by norm_num) hr, Nat.cast_ofNat, zpow_add₀ (by norm_num)]
      have hs : m + 1 ≤ 2 ^ (m.log2 + 1) := Nat.lt_log2_self
      refine hlt.trans_le (mul_le_mul_of_nonneg_right ?_ hp.le)
      exact_mod_cast hs
    rw [log_dyadic hm] at hlow
    unfold gridExponent
    omega

/-- The last step of rounding: a whole number of steps of the grid, at most
`2 ^ 53`, is put on the grid. -/
theorem rounds_of_steps (s : Sign) {r : ℝ} (hr : 0 < r) {k : Nat}
    (hk : (k : ℤ) = nearestEven (r / 2 ^ gridExponent r)) :
    let last := shiftToTargetExponent .binary64 k (gridExponent r) .exact
    Rounds r (partsOf s last.1.mantissa last.2) := by
  have hlow : -1074 ≤ gridExponent r := le_max_right _ _
  have hv : rounded r = dyadic k (gridExponent r) := by
    rw [rounded, ← hk, Int.cast_natCast, dyadic]
  have hle : k ≤ 2 ^ 53 := by
    have := nearestEven_grid_le r
    omega
  rcases hle.lt_or_eq with hlt | rfl
  · -- 53 bits at most: on the grid as it stands
    have hlog : k.log2 ≤ 52 := by
      rcases Nat.eq_zero_or_pos k with rfl | hk0
      · simp
      · have := (Nat.log2_lt (by omega)).mpr hlt
        omega
    have hg : 2 ^ 52 ≤ k ∨ gridExponent r = -1074 := by
      by_cases he : gridExponent r = -1074
      · exact .inr he
      · have := le_nearestEven_grid hr he
        exact .inl (by omega)
    have hn : (max (k.log2 + gridExponent r - 52) (-1074) - gridExponent r).toNat = 0 := by
      omega
    rw [shiftToTargetExponent_eq .exact hn]
    change Rounds r (partsOf s k (gridExponent r + (0 : Nat)))
    rw [Nat.cast_zero, add_zero, partsOf]
    split
    · rename_i h0
      exact .zero s (by rw [hv, h0, dyadic, Nat.cast_zero, zero_mul])
    · exact .finite s _ ⟨hlt, hlow, hg⟩ hv.symm
  · -- rounding has carried to a 54th bit, and one more shift loses nothing
    have hn : (max ((2 ^ 53 : Nat).log2 + gridExponent r - 52) (-1074) - gridExponent r).toNat
        = 1 := by
      rw [Nat.log2_two_pow]
      omega
    rw [shiftToTargetExponent_eq .exact hn]
    change Rounds r (.finite s (2 ^ 52) (gridExponent r + (1 : Nat)) (by omega))
    refine .finite s _ ⟨by omega, by omega, .inl le_rfl⟩ ?_
    rw [hv, dyadic, dyadic, Nat.cast_one, zpow_add_one₀ (by norm_num)]
    push_cast
    ring

/-- Rounding a mantissa with its accuracy is rounding the real behind it. -/
theorem rounds_roundWithAccuracy (s : Sign) {r : ℝ} (hr : 0 < r) {m : Nat} {e : Int}
    {a : Accuracy} (h : Represents (.ofMantissaAndAccuracy m a) (r / 2 ^ e))
    (he : e ≤ gridExponent r) : Rounds r (roundWithAccuracy .binary64 s m e a) := by
  have hf : ⌊r / 2 ^ e⌋ = (m : ℤ) := by
    rw [h.floor]
    rcases a with _ | o
    · rfl
    · cases o <;> rfl
  -- the first shift, by `n` places, is the one that leads to the grid
  obtain ⟨n, hn⟩ : ∃ n : ℕ, gridExponent r = e + n := ⟨(gridExponent r - e).toNat, by omega⟩
  have hd : r / 2 ^ e / 2 ^ n = r / 2 ^ gridExponent r := by
    rw [div_div, ← zpow_natCast, ← zpow_add₀ (by norm_num), hn]
  have hk := (h.shiftRight n).roundedMantissa
  rw [hd] at hk
  have ht : (max (m.log2 + e - 52) (-1074) - e).toNat = n := by
    rw [gridExponent_eq hr hf he]
    omega
  rw [roundWithAccuracy_eq, shiftToTargetExponent_eq a ht, ← hn]
  exact rounds_of_steps s hr hk

end VirtualMarket.Double
