/-
VirtualMarket.Proofs.Snapshot.FixedPoint — fixed-point integers as doubles.

The text of a field is accepted if it denotes a natural number of at most 96 bits.
Conversion rounds up to six times, but every intermediate result lies between two
powers of two that are known beforehand.  So a number that is not zero never gets
lost: its fraction, scaled up again, is at least a half, and rounds to one.
-/
import VirtualMarket.Proofs.Decimal.Integer
import VirtualMarket.Proofs.Double.Difference
import VirtualMarket.Proofs.Double.Numeral
import VirtualMarket.Snapshot.FixedPoint

namespace VirtualMarket

open Decimal Double

/-! ## Zero -/

namespace Double

open Float.Model

theorem Positive.zero_div {y : Float} (h : Positive y) : 0 / y = 0 := by
  obtain ⟨m, e, hm, hv⟩ := h
  have h0 : view 0 = .zero .positive := rfl
  rw [div_eq_ofView, h0, hv]
  change ofView (.zero .positive) = 0
  rw [← h0, ofView_view]

end Double

/-- The field that a flaw blames. -/
def SnapshotFlaw.field : SnapshotFlaw → String
  | .unreadable field .. => field
  | .negative field _ => field
  | .tooManyDecimals field .. => field
  | .tooLarge field _ => field
  | .notPositive field _ => field

namespace FixedPoint

/-! ## Conversion -/

variable {n decimals bits : Nat}

/-- The unit of a scale that lies between two powers of two. -/
structure Scale (decimals bits : Nat) : Prop where
  nonzero : decimals ≠ 0
  low : 2 ^ bits ≤ 10 ^ decimals
  high : 10 ^ decimals ≤ 2 ^ (bits + 1)
  small : bits < 100
  /-- The power by repeated squaring is the same double. -/
  power : powerOnto 1 10 decimals = Float.ofNat (10 ^ decimals)

theorem Scale.unit (h : Scale decimals bits) :
    Within bits (bits + 1) (Float.ofNat (10 ^ decimals)) :=
  mod_cast Within.ofNat h.low h.high (by have := h.small; omega)

theorem scale_six : Scale 6 19 where
  nonzero := by decide
  low := by decide
  high := by decide
  small := by decide
  power := eq_of_toBits (by decide +kernel)

theorem scale_eighteen : Scale 18 59 where
  nonzero := by decide
  low := by decide
  high := by decide
  small := by decide
  power := eq_of_toBits (by decide +kernel)

theorem Scale.fraction (h : Scale decimals bits) (hr : 0 < n % 10 ^ decimals) :
    Within (-(bits + 1)) 1 (Float.ofNat (n % 10 ^ decimals) / Float.ofNat (10 ^ decimals)) := by
  have hsmall := h.small
  have hlt : n % 10 ^ decimals < 10 ^ decimals := Nat.mod_lt _ (by positivity)
  have hpart : Within 0 (bits + 1) (Float.ofNat (n % 10 ^ decimals)) :=
    mod_cast Within.ofNat (j := 0) hr (hlt.le.trans h.high) (by omega)
  exact (hpart.div h.unit (by omega) (by omega)).mono (by omega) (by omega)

theorem Scale.sum (h : Scale decimals bits) (hn : n ≤ 2 ^ 96) (hr : 0 < n % 10 ^ decimals) :
    Within (-(bits + 1)) 97 (Float.ofNat (n / 10 ^ decimals)
      + Float.ofNat (n % 10 ^ decimals) / Float.ofNat (10 ^ decimals)) := by
  have hsmall := h.small
  have hfraction := h.fraction hr
  rcases Nat.eq_zero_or_pos (n / 10 ^ decimals) with h0 | hpos
  · rw [h0, ofNat_zero, hfraction.positive.zero_add]
    exact hfraction.mono le_rfl (by norm_num)
  · have hwhole : Within 0 96 (Float.ofNat (n / 10 ^ decimals)) :=
      Within.ofNat (j := 0) hpos ((Nat.div_le_self _ _).trans hn) (by norm_num)
    exact hwhole.add (hfraction.mono le_rfl (by norm_num)) (by omega) (by norm_num)

/-- A number that is not zero becomes a positive finite double: its fraction, put
back at its scale, is at least a half. -/
theorem Scale.positive_toDouble (h : Scale decimals bits) (hpos : 0 < n) (hn : n ≤ 2 ^ 96) :
    Positive (toDouble n decimals) := by
  have hsmall := h.small
  have hpow : Nat.pow 10 decimals = 10 ^ decimals := rfl
  rw [toDouble, if_neg h.nonzero]
  simp only [hpow, h.power]
  rcases Nat.eq_zero_or_pos (n % 10 ^ decimals) with h0 | hr
  · have hq : 0 < n / 10 ^ decimals :=
      Nat.div_pos (Nat.le_of_dvd hpos (Nat.dvd_of_mod_eq_zero h0)) (by positivity)
    have hwhole : Within 0 96 (Float.ofNat (n / 10 ^ decimals)) :=
      Within.ofNat (j := 0) hq ((Nat.div_le_self _ _).trans hn) (by norm_num)
    rw [h0, ofNat_zero, h.unit.positive.zero_div, if_pos (by decide)]
    exact hwhole.positive
  · have hscaled : Within (-1) (98 + bits : ℕ) _ :=
      ((h.sum hn hr).mul h.unit (by omega) (by omega)).mono (by omega) (by omega)
    rw [(h.fraction hr).positive.beq_zero, if_neg (by decide)]
    exact ((hscaled.roundHalfAway (by omega)).div h.unit (by omega) (by omega)).positive

theorem Scale.toDouble_zero (h : Scale decimals bits) : toDouble 0 decimals = 0 := by
  have hpow : Nat.pow 10 decimals = 10 ^ decimals := rfl
  rw [toDouble, if_neg h.nonzero]
  simp only [hpow, Nat.zero_div, Nat.zero_mod, ofNat_zero]
  rw [h.unit.positive.zero_div, if_pos (by decide)]

/-- A natural number of at most 96 bits with the decimals of a field is a finite
double that is not negative, and is zero only if it was. -/
theorem toDouble_cases (hd : decimals = 0 ∨ decimals = 6 ∨ decimals = 18) (hn : n ≤ largest) :
    (n = 0 ∧ toDouble n decimals = 0) ∨ (n ≠ 0 ∧ Positive (toDouble n decimals)) := by
  have hle : n ≤ 2 ^ 96 := hn.trans (by decide)
  rcases Nat.eq_zero_or_pos n with rfl | hpos
  · refine .inl ⟨rfl, ?_⟩
    rcases hd with rfl | rfl | rfl
    · rfl
    · exact scale_six.toDouble_zero
    · exact scale_eighteen.toDouble_zero
  · refine .inr ⟨hpos.ne', ?_⟩
    rcases hd with rfl | rfl | rfl
    · exact (Within.ofNat (j := 0) hpos hle (by norm_num)).positive
    · exact scale_six.positive_toDouble hpos hle
    · exact scale_eighteen.positive_toDouble hpos hle

/-! ## Texts -/

/-- A text that white space may surround, of a natural number of at most 96 bits. -/
def Amount (text : String) (n : Nat) : Prop :=
  Denotes (Text.trimBlank text.toList) n ∧ n ≤ largest

/-- The text of an amount is read as that amount. -/
theorem Amount.read {text : String} (h : Amount text n) :
    signed128.read (Text.trimBlank text.toList) = .ok (n : Int) := by
  have hle := h.2
  have hrange : signed128.contains n = true := by
    have : largest < signed128.high := by decide
    simp only [IntegerRange.contains, Bool.and_eq_true, decide_eq_true_eq]
    omega
  exact (read_eq_ok (by decide)).mpr ⟨h.1, hrange⟩

theorem Amount.unique {text : String} {m : Nat} (h : Amount text n) (h' : Amount text m) :
    n = m :=
  Int.ofNat.inj (Except.ok.inj (h.read.symm.trans h'.read))

variable {field raw : String} {x : Float} {fault : Fault}

theorem decode_eq_ok (hd : decimals ≤ mostDecimals) :
    decode field raw decimals = .ok x ↔ ∃ n, Amount raw n ∧ x = toDouble n decimals := by
  constructor
  · intro h
    unfold decode at h
    split at h
    · cases h
    · rename_i z hz
      split_ifs at h with hneg hmany hlarge
      cases h
      obtain ⟨n, rfl⟩ := Int.eq_ofNat_of_zero_le (Int.not_lt.mp hneg)
      exact ⟨n, ⟨((read_eq_ok (by decide)).mp hz).1, Nat.not_lt.mp hlarge⟩, rfl⟩
  · rintro ⟨n, hn, rfl⟩
    have hle := hn.2
    rw [decode, hn.read]
    simp only [Int.toNat_natCast]
    rw [if_neg (by omega), if_neg (by omega), if_neg (by omega)]

/-- A field whose text is refused is blamed by its name. -/
theorem field_of_decode (h : decode field raw decimals = .error fault) :
    ∃ flaw, fault = .invalidSnapshot flaw ∧ flaw.field = field := by
  unfold decode at h
  split at h
  · cases h
    exact ⟨_, rfl, rfl⟩
  · split_ifs at h <;> cases h <;> exact ⟨_, rfl, rfl⟩

end FixedPoint

end VirtualMarket
