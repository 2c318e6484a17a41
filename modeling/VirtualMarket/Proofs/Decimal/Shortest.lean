/-
VirtualMarket.Proofs.Decimal.Shortest — the digits of a double read back.

Reading goes by the value of a decimal: if that is a double, the double is read,
whatever zeros the decimal is written with.  The search takes only digits that read
back, and where it finds none all digits of the double are given, which have its
value.
-/
import VirtualMarket.Decimal.Shortest
import VirtualMarket.Proofs.Double.Numeral

namespace VirtualMarket.Decimal

open Double (Positive real)

namespace Scaled

variable {d : Scaled}

/-! ## Values -/

/-- The real number that a decimal is. -/
noncomputable def value (d : Scaled) : ℝ :=
  d.digits * 10 ^ d.exponent

theorem value_trimmed (d : Scaled) : d.trimmed.value = d.value := by
  fun_induction trimmed d with
  | case1 d h ih =>
    have hten : (d.digits : ℝ) = (d.digits / 10 : ℕ) * 10 := by
      exact_mod_cast (Nat.div_mul_cancel (Nat.dvd_of_mod_eq_zero h.2)).symm
    rw [ih, value, value, hten, zpow_add_one₀ (by norm_num)]
    ring
  | case2 d h => rfl

theorem digits_trimmed_le (d : Scaled) : d.trimmed.digits ≤ d.digits := by
  fun_induction trimmed d with
  | case1 d h ih => exact ih.trans (Nat.div_le_self _ _)
  | case2 d h => exact le_rfl

theorem trimmed_trimmed (d : Scaled) : d.trimmed.trimmed = d.trimmed := by
  fun_induction trimmed d with
  | case1 d h ih => exact ih
  | case2 d h => rw [trimmed, dif_neg h]

theorem toDouble_trimmed (d : Scaled) : d.trimmed.toDouble = d.toDouble := by
  rw [toDouble, toDouble, trimmed_trimmed]

/-- Zeros at the end do not count. -/
theorem trimmed_zeros {n : Nat} (h : 0 < n) (e : Int) (zeros : Nat) :
    trimmed ⟨n * 10 ^ zeros, e - zeros⟩ = trimmed ⟨n, e⟩ := by
  induction zeros with
  | zero => simp
  | succ zeros ih =>
    have hpos : 0 < n * 10 ^ zeros := by positivity
    have he : e - ((zeros + 1 : ℕ) : ℤ) + 1 = e - zeros := by omega
    rw [pow_succ, ← mul_assoc, trimmed, dif_pos ⟨by simpa using hpos.ne', Nat.mul_mod_left ..⟩]
    simp only [he]
    rw [Nat.mul_div_cancel _ (by norm_num), ih]

theorem toDouble_zeros {n : Nat} (h : 0 < n) (e : Int) (zeros : Nat) :
    toDouble ⟨n * 10 ^ zeros, e - zeros⟩ = toDouble ⟨n, e⟩ := by
  rw [toDouble, trimmed_zeros h, toDouble]

/-! ## Reading a value -/

/-- The estimate of a decimal length from a binary one is off by less than one. -/
theorem ten_pow_estimate {length : Nat} (h : length < 3300) :
    10 ^ (length * 30103 / 100000) ≤ 10 * 2 ^ length ∧
      2 ^ length ≤ 10 ^ (length * 30103 / 100000 + 1) := by
  have hall : ∀ i < 60, ∀ j < 55,
      10 ^ ((55 * i + j) * 30103 / 100000) ≤ 10 * 2 ^ (55 * i + j) ∧
        2 ^ (55 * i + j) ≤ 10 ^ ((55 * i + j) * 30103 / 100000 + 1) := by
    decide +kernel
  have hlength : 55 * (length / 55) + length % 55 = length := Nat.div_add_mod ..
  have := hall (length / 55) (by omega) (length % 55) (Nat.mod_lt _ (by norm_num))
  rwa [hlength] at this

theorem real_bounds {y : Float} (h : Positive y) :
    2 ^ (-1074 : ℤ) ≤ real y ∧ real y < 2 ^ (1024 : ℤ) := by
  obtain ⟨m, e, hm, hv⟩ := h
  obtain ⟨hg, he⟩ := Double.onGrid_of_view hv
  have hone : (1 : ℝ) ≤ m := by exact_mod_cast hm
  have hlt : (m : ℝ) < 2 ^ (53 : ℤ) := by exact_mod_cast hg.lt
  rw [Double.real_of_view hv, Double.dyadic]
  constructor
  · calc (2 : ℝ) ^ (-1074 : ℤ) = 1 * 2 ^ (-1074 : ℤ) := (one_mul _).symm
      _ ≤ m * 2 ^ e := by gcongr; exacts [one_le_two, hg.low]
  · calc (m : ℝ) * 2 ^ e < 2 ^ (53 : ℤ) * 2 ^ e := by gcongr
      _ ≤ 2 ^ (53 : ℤ) * 2 ^ (971 : ℤ) := by gcongr; exact one_le_two
      _ = 2 ^ (1024 : ℤ) := by rw [← zpow_add₀ two_ne_zero]; norm_num

theorem digits_ne_zero {y : Float} (hy : Positive y) (h : d.value = real y) : d.digits ≠ 0 := by
  intro h0
  rw [value, h0, Nat.cast_zero, zero_mul] at h
  exact hy.real_pos.ne h

theorem two_zpow_lt : (2 : ℝ) ^ (1024 : ℤ) < 10 ^ (310 : ℤ) := by
  have h : 2 ^ 1024 < 10 ^ 310 := by decide +kernel
  exact_mod_cast h

theorem ten_zpow_lt : (2 : ℝ) * 10 ^ (-330 : ℤ) < 2 ^ (-1074 : ℤ) := by
  have h : 2 * 2 ^ 1074 < 10 ^ 330 := by decide +kernel
  have hreal : (2 : ℝ) * 2 ^ (1074 : ℤ) < 10 ^ (330 : ℤ) := by exact_mod_cast h
  rwa [zpow_neg, zpow_neg, ← div_eq_mul_inv, div_lt_iff₀ (by positivity), ← div_eq_inv_mul,
    lt_div_iff₀ (by positivity)]

theorem log2_lt_of_le {n m k : Nat} (hn : n ≠ 0) (h : n ≤ m) (hm : m.log2 < k) : n.log2 < k :=
  (Nat.log2_lt hn).mpr (h.trans_lt ((Nat.log2_lt (by omega)).mp hm))

/-- The leading position of a decimal that is a double is far from the ends of the
range. -/
theorem position_bounds {y : Float} (hy : Positive y) (hd : d.digits.log2 < 3300)
    (h : d.value = real y) :
    -330 ≤ d.exponent + (d.digits.log2 * 30103 / 100000 : ℕ) ∧
      d.exponent + (d.digits.log2 * 30103 / 100000 : ℕ) ≤ 310 := by
  obtain ⟨hmin, hmax⟩ := real_bounds hy
  obtain ⟨hlow, hhigh⟩ := ten_pow_estimate hd
  obtain ⟨hle, hlt⟩ := (Nat.log2_eq_iff (digits_ne_zero hy h)).mp (rfl : d.digits.log2 = _)
  set length := d.digits.log2
  set places := length * 30103 / 100000
  rw [← h, value] at hmin hmax
  have hle : (2 : ℝ) ^ length ≤ d.digits := by exact_mod_cast hle
  have hlt : (d.digits : ℝ) < 2 ^ length * 2 := by exact_mod_cast hlt
  have hlow : (10 : ℝ) ^ places ≤ 10 * 2 ^ length := by exact_mod_cast hlow
  have hhigh : (2 : ℝ) ^ length ≤ 10 ^ (places + 1) := by exact_mod_cast hhigh
  constructor
  · by_contra hout
    have htop : (d.digits : ℝ) * 10 ^ d.exponent ≤ 2 * 10 ^ (-330 : ℤ) := by
      calc (d.digits : ℝ) * 10 ^ d.exponent ≤ 10 ^ (places + 1) * 2 * 10 ^ d.exponent := by
            gcongr
            linarith
        _ = 2 * 10 ^ (d.exponent + places + 1) := by
            rw [add_assoc, zpow_add₀ (by norm_num), ← zpow_natCast]
            push_cast
            ring
        _ ≤ 2 * 10 ^ (-330 : ℤ) := by gcongr <;> [norm_num; omega]
    exact absurd (hmin.trans htop) (not_le.mpr ten_zpow_lt)
  · by_contra hout
    have hbottom : (10 : ℝ) ^ (310 : ℤ) ≤ d.digits * 10 ^ d.exponent := by
      calc (10 : ℝ) ^ (310 : ℤ) ≤ 10 ^ (d.exponent + places - 1) := by
            gcongr <;> [norm_num; omega]
        _ = 10 ^ places * 10 ^ d.exponent / 10 := by
            rw [zpow_sub₀ (by norm_num), zpow_add₀ (by norm_num), zpow_natCast, zpow_one]
            ring
        _ ≤ 10 * 2 ^ length * 10 ^ d.exponent / 10 := by gcongr
        _ = 2 ^ length * 10 ^ d.exponent := by ring
        _ ≤ d.digits * 10 ^ d.exponent := by gcongr
    exact absurd (hbottom.trans_lt hmax) (not_lt.mpr two_zpow_lt.le)

/-- A decimal that is a double is read as that double. -/
theorem toDouble_of_value {y : Float} (hy : Positive y) (hd : d.digits.log2 < 3300)
    (h : d.value = real y) : d.toDouble = y := by
  have hvalue : d.trimmed.value = real y := (value_trimmed d).trans h
  have hne := digits_ne_zero hy hvalue
  have hlength : d.trimmed.digits.log2 < 3300 := log2_lt_of_le hne (digits_trimmed_le d) hd
  obtain ⟨hlow, hhigh⟩ := position_bounds hy hlength hvalue
  rw [toDouble]
  generalize d.trimmed = t at hvalue hne hlow hhigh
  simp only [if_neg hne, if_neg (not_lt.mpr hhigh), if_neg (not_lt.mpr hlow)]
  have hguard : t.exponent.natAbs ≤
      if decide (t.exponent < 0) = true then 2 ^ 11 + t.digits.log2 else 2 ^ 11 := by
    split
    · omega
    · rename_i hneg
      have := of_decide_eq_false (eq_false_of_ne_true hneg)
      omega
  obtain ⟨u, hu, hs, hr⟩ := Double.rounds_ofScientific (Nat.pos_of_ne_zero hne) _ hguard
  rw [Double.signedExponent_natAbs] at hr
  change Double.Rounds t.value u at hr
  rw [hvalue] at hr
  rw [hu, hy.eq_view hr hs, Double.ofView_view]

end Scaled

/-! ## All digits -/

/-- All digits of a positive double have its value. -/
theorem Magnitude.value_exact {y : Float} (hy : Positive y) :
    (magnitude y).exact.value = real y := by
  obtain ⟨m, e, hm, hv⟩ := hy
  rw [Double.magnitude_of_view hv, Double.real_of_view hv, Double.dyadic, exact]
  split
  · rename_i hsign
    have he : (e.toNat : ℤ) = e := Int.toNat_of_nonneg hsign
    change ((m * 2 ^ e.toNat : ℕ) : ℝ) * 10 ^ (0 : ℤ) = m * 2 ^ e
    rw [← he, zpow_zero, mul_one, zpow_natCast]
    push_cast
    rfl
  · rename_i hsign
    -- a half is five tenths
    have hsign : ¬ 0 ≤ e := hsign
    obtain ⟨n, rfl⟩ : ∃ n : ℕ, e = -n := ⟨(-e).toNat, by omega⟩
    have he : (-(-(n : ℤ))).toNat = n := by omega
    change ((m * 5 ^ (-(-(n : ℤ))).toNat : ℕ) : ℝ) * 10 ^ (-(n : ℤ)) = m * 2 ^ (-(n : ℤ))
    rw [he, zpow_neg, zpow_neg, zpow_natCast, zpow_natCast, ← inv_pow, ← inv_pow]
    push_cast
    rw [mul_assoc, ← mul_pow]
    norm_num

/-- A double has some thousand bits at most when all its digits are written out. -/
theorem Magnitude.log2_exact {y : Float} (hy : Positive y) :
    (magnitude y).exact.digits.log2 < 3300 := by
  have hne := Scaled.digits_ne_zero hy (value_exact hy)
  obtain ⟨m, e, hm, hv⟩ := hy
  obtain ⟨hg, he⟩ := Double.onGrid_of_view hv
  have hlow := hg.low
  rw [Double.magnitude_of_view hv] at hne ⊢
  refine (Nat.log2_lt hne).mpr ?_
  rw [exact]
  split
  · calc m * 2 ^ e.toNat < 2 ^ 53 * 2 ^ e.toNat := by gcongr; exact hg.lt
      _ = 2 ^ (53 + e.toNat) := (pow_add ..).symm
      _ ≤ 2 ^ 3300 := Nat.pow_le_pow_right (by norm_num) (by omega)
  · calc m * 5 ^ (-e).toNat < 2 ^ 53 * 5 ^ (-e).toNat := by gcongr; exact hg.lt
      _ ≤ 2 ^ 53 * (2 ^ 3) ^ (-e).toNat := by gcongr; norm_num
      _ = 2 ^ (53 + 3 * (-e).toNat) := by rw [← pow_mul, ← pow_add]
      _ ≤ 2 ^ 3300 := Nat.pow_le_pow_right (by norm_num) (by omega)

/-! ## The search -/

theorem nearer_cases (tie : Tie) (num den lower : Nat) :
    nearer tie num den lower = lower ∨ nearer tie num den lower = lower + 1 := by
  unfold nearer
  split
  · exact .inl rfl
  · exact .inr rfl
  · exact .inr rfl
  · split
    · exact .inl rfl
    · exact .inr rfl

theorem beq_of_onGrid? {tie : Tie} {y : Float} {power : Int} {d : Scaled}
    (h : onGrid? tie y power = some d) : (d.toDouble == y) = true := by
  simp only [onGrid?] at h
  split at h
  · rename_i hlower hupper
    cases h
    rcases nearer_cases tie _ _ _ with hd | hd <;> rw [hd] <;> assumption
  · cases h
    assumption
  · cases h
    assumption
  · cases h

theorem beq_of_searchGrids {tie : Tie} {y : Float} {lead : Int} {tries digits : Nat} {d : Scaled}
    (h : searchGrids tie y lead tries digits = some d) : (d.toDouble == y) = true := by
  induction tries generalizing digits with
  | zero => cases h
  | succ tries ih =>
    unfold searchGrids at h
    split at h
    · cases h
      exact beq_of_onGrid? ‹_›
    · exact ih h

/-- The digits of a double read back. -/
theorem toDouble_shortest {y : Float} (hy : Positive y) (tie : Tie) :
    (shortest tie y).toDouble = y := by
  rw [shortest, Scaled.toDouble_trimmed]
  cases hsearch : searchGrids tie y (magnitude y).leadingPower 18 1 with
  | some d => exact hy.eq_of_beq (beq_of_searchGrids hsearch)
  | none =>
    exact Scaled.toDouble_of_value hy (Magnitude.log2_exact hy) (Magnitude.value_exact hy)

end VirtualMarket.Decimal
