/-
VirtualMarket.Proofs.Decimal.Layout — written numbers read back.

Without an exponent the text of a finite double is digits, a point and digits, with a
minus before them if the double has one.  The digits are those of the shortest decimal
and zeros on either side, and neither changes what is read.
-/
import VirtualMarket.Decimal.Layout
import VirtualMarket.Proofs.Decimal.Integer
import VirtualMarket.Proofs.Decimal.Shortest

namespace VirtualMarket.Decimal

open Double (Positive view ofView)
open Float.Model
open Float.Model.UnpackedFloat

/-! ## Digits of a natural number -/

variable {n : Nat} {c : Char} {a b : List Char}

theorem isDigit_eq (c : Char) : isDigit c = c.isDigit := by
  rw [Bool.eq_iff_iff]
  unfold isDigit digitValue? Char.isDigit
  split <;> simp_all [Char.le_def, UInt32.le_iff_toNat_le]

theorem digitValue?_eq (h : isDigit c = true) : digitValue? c = some (c.toNat - 48) := by
  unfold isDigit digitValue? at h
  unfold digitValue?
  split at h
  · rename_i hc
    rw [if_pos hc]
  · cases h

theorem digits_digitsOf (n : Nat) : Digits (digitsOf n) where
  nonempty := Nat.toDigits_ne_nil
  all c hc := (isDigit_eq c).trans (Nat.isDigit_of_mem_toDigits (by norm_num) le_rfl hc)

theorem onto_eq_ofDigitChars (value : Nat) (h : ∀ c ∈ a, isDigit c = true) :
    onto value a = Nat.ofDigitChars 10 a value := by
  induction a generalizing value with
  | nil => rfl
  | cons c rest ih =>
    rw [onto_cons, digitValue?_eq (h c List.mem_cons_self),
      ih _ fun c hc => h c (List.mem_cons_of_mem _ hc)]
    rfl

theorem naturalOf_digitsOf (n : Nat) : naturalOf (digitsOf n) = n := by
  rw [naturalOf_eq, onto_eq_ofDigitChars 0 (digits_digitsOf n).all]
  exact Nat.ofDigitChars_toDigits (by norm_num) le_rfl

theorem digitsOf_injective : Function.Injective digitsOf := by
  intro m n h
  rw [← naturalOf_digitsOf m, h, naturalOf_digitsOf]

theorem toList_toString_nat (n : Nat) : (toString n).toList = digitsOf n :=
  Nat.toList_repr

theorem toList_toString_int (n : Int) : (toString n).toList =
    if n < 0 then '-' :: digitsOf n.natAbs else digitsOf n.natAbs := by
  rw [Int.toString_eq_repr, Int.repr_eq_if]
  by_cases h : n < 0
  · have habs : (-n).toNat = n.natAbs := by omega
    rw [if_neg (by omega), if_pos h, String.toList_append, Nat.toList_repr, habs]
    rfl
  · have habs : n.toNat = n.natAbs := by omega
    rw [if_pos (by omega), if_neg h, Nat.toList_repr, habs]
    rfl

/-- The text of an integer ends at the first character after it that is no digit. -/
theorem toString_int_append_inj {m n : Int} {c d : Char} {rest rest' : List Char}
    (h : (toString m).toList ++ c :: rest = (toString n).toList ++ d :: rest')
    (hc : isDigit c = false) (hd : isDigit d = false) : m = n ∧ c :: rest = d :: rest' := by
  have hdigits (k : Nat) := (digits_digitsOf k).all
  -- a minus is no digit, so both have one or neither
  have hsign (k l : Nat) (t t' : List Char) : '-' :: (digitsOf k ++ t) ≠ digitsOf l ++ t' := by
    obtain ⟨a, as, ha⟩ := List.exists_cons_of_ne_nil (digits_digitsOf l).nonempty
    intro heq
    rw [ha, List.cons_append] at heq
    have := hdigits l a (ha ▸ List.mem_cons_self)
    rw [← (List.cons.inj heq).1] at this
    cases this
  rw [toList_toString_int, toList_toString_int] at h
  split at h <;> split at h
  · obtain ⟨habs, hrest⟩ := digits_append_inj (List.cons.inj h).2 (hdigits _) hc (hdigits _) hd
    exact ⟨by have := digitsOf_injective habs; omega, hrest⟩
  · exact absurd h (hsign _ _ _ _)
  · exact absurd h.symm (hsign _ _ _ _)
  · obtain ⟨habs, hrest⟩ := digits_append_inj h (hdigits _) hc (hdigits _) hd
    exact ⟨by have := digitsOf_injective habs; omega, hrest⟩

theorem onto_append (value : Nat) (a b : List Char) : onto value (a ++ b) = onto (onto value a) b :=
  List.foldl_append

theorem onto_zeros (value count : Nat) :
    onto value (List.replicate count '0') = value * 10 ^ count := by
  induction count generalizing value with
  | zero => simp
  | succ count ih =>
    have hzero : (digitValue? '0').getD 0 = 0 := rfl
    rw [List.replicate_succ, onto_cons, hzero, ih, pow_succ]
    ring

/-- The first digit of a positive number is no zero. -/
theorem head?_digitsOf (h : 0 < n) : (digitsOf n).head? ≠ some '0' := by
  induction n using Nat.strong_induction_on with
  | _ n ih =>
    rw [digitsOf]
    by_cases hn : n < 10
    · rw [Nat.toDigits_of_lt_base hn]
      simpa using h.ne'
    · have hlast := ih (n / 10) (Nat.div_lt_self h (by norm_num)) (by omega)
      rw [Nat.toDigits_of_base_le (by norm_num) (not_lt.mp hn),
        List.head?_append_of_ne_nil _ Nat.toDigits_ne_nil]
      exact hlast

/-! ## Digits with a point -/

/-- Digits of which a zero comes first only if it is alone. -/
structure Whole (text : List Char) : Prop extends Digits text where
  leading : text = ['0'] ∨ text.head? ≠ some '0'

theorem digits_zero : Digits ['0'] where
  nonempty := List.cons_ne_nil _ _
  all c hc := by rw [List.mem_singleton.mp hc]; rfl

theorem whole_zero : Whole ['0'] where
  toDigits := digits_zero
  leading := .inl rfl

theorem whole_digitsOf (n : Nat) : Whole (digitsOf n) := by
  rcases Nat.eq_zero_or_pos n with rfl | h
  · exact whole_zero
  · exact ⟨digits_digitsOf n, .inr (head?_digitsOf h)⟩

/-- Digits, a point and digits. -/
structure Pointed (text whole fraction : List Char) : Prop where
  eq : text = whole ++ '.' :: fraction
  before : Whole whole
  after : Digits fraction

theorem onto_zero (value : Nat) : onto value ['0'] = 10 * value := rfl

/-- Zeros before digits change nothing. -/
theorem naturalOf_replicate_append (zeros : Nat) (digits : List Char) :
    naturalOf (List.replicate zeros '0' ++ digits) = naturalOf digits := by
  rw [naturalOf_eq, onto_append, onto_zeros, Nat.zero_mul, naturalOf_eq]

theorem naturalOf_zeros_before (digits : List Char) (zeros : Nat) :
    naturalOf (['0'] ++ (List.replicate zeros '0' ++ digits)) = naturalOf digits :=
  naturalOf_replicate_append (zeros + 1) digits

/-- Zeros after digits are tens. -/
theorem naturalOf_zeros_after (digits : List Char) (zeros : Nat) :
    naturalOf (digits ++ List.replicate zeros '0' ++ ['0']) =
      naturalOf digits * 10 ^ (zeros + 1) := by
  rw [naturalOf_eq, onto_append, onto_append, onto_zeros, onto_zero, pow_succ, naturalOf_eq]
  ring

theorem isDigit_zeros {count : Nat} : ∀ c ∈ List.replicate count '0', isDigit c = true := by
  intro c hc
  rw [List.eq_of_mem_replicate hc]
  rfl

namespace Digits

theorem zeros_after (ha : Digits a) (zeros : Nat) : Digits (a ++ List.replicate zeros '0') where
  nonempty h := ha.nonempty (List.append_eq_nil_iff.mp h).1
  all := List.forall_mem_append.mpr ⟨ha.all, isDigit_zeros⟩

theorem zeros_before (ha : Digits a) (zeros : Nat) : Digits (List.replicate zeros '0' ++ a) where
  nonempty h := ha.nonempty (List.append_eq_nil_iff.mp h).2
  all := List.forall_mem_append.mpr ⟨isDigit_zeros, ha.all⟩

theorem take (ha : Digits a) {count : Nat} (h : 0 < count) : Digits (a.take count) where
  nonempty hnil := (List.take_eq_nil_iff.mp hnil).elim (by omega) ha.nonempty
  all c hc := ha.all c (List.mem_of_mem_take hc)

theorem drop (ha : Digits a) {count : Nat} (h : count < a.length) : Digits (a.drop count) where
  nonempty hnil := absurd (List.drop_eq_nil_iff.mp hnil) (by omega)
  all c hc := ha.all c (List.mem_of_mem_drop hc)

end Digits

/-- Wherever the point is set, the digits are read as what they stand for. -/
theorem exists_pointed (h : 0 < n) (e : Int) :
    ∃ whole fraction,
      Pointed (pointed true (digitsOf n) (e + (digitsOf n).length)) whole fraction ∧
      Scaled.toDouble ⟨naturalOf (whole ++ fraction), 0 - fraction.length⟩ =
        Scaled.toDouble ⟨n, e⟩ := by
  have hdigits := digits_digitsOf n
  have hhead := head?_digitsOf h
  have hvalue := naturalOf_digitsOf n
  generalize digitsOf n = digits at *
  unfold pointed
  split
  · -- all digits before the point, and zeros up to it
    set zeros := (e + digits.length).toNat - digits.length with hzeros
    have hwhole : Whole (digits ++ List.replicate zeros '0') :=
      ⟨hdigits.zeros_after zeros, .inr (by rwa [List.head?_append_of_ne_nil _ hdigits.nonempty])⟩
    refine ⟨_, ['0'], ⟨rfl, hwhole, digits_zero⟩, ?_⟩
    have he : (0 : ℤ) - (['0'] : List Char).length = e - ((zeros + 1 : ℕ) : ℤ) := by
      simp only [List.length_singleton]
      omega
    rw [naturalOf_zeros_after, hvalue, he, Scaled.toDouble_zeros h]
  · split
    · -- the point among the digits
      set places := (e + digits.length).toNat
      have hplaces : 0 < places ∧ places < digits.length := by omega
      have hwhole : Whole (digits.take places) :=
        ⟨hdigits.take hplaces.1, .inr (by rwa [List.head?_take, if_neg (by omega)])⟩
      refine ⟨_, digits.drop places, ⟨rfl, hwhole, hdigits.drop hplaces.2⟩, ?_⟩
      have he : (0 : ℤ) - (digits.drop places).length = e := by
        rw [List.length_drop]
        omega
      rw [List.take_append_drop, hvalue, he]
    · -- zeros between the point and the digits
      set zeros := (-(e + digits.length)).toNat
      refine ⟨['0'], _, ⟨rfl, whole_zero, hdigits.zeros_before zeros⟩, ?_⟩
      have he : (0 : ℤ) - (List.replicate zeros '0' ++ digits).length = e := by
        rw [List.length_append, List.length_replicate]
        omega
      rw [naturalOf_zeros_before, hvalue, he]

/-! ## Doubles -/

variable {x : Float} {l : Layout}

theorem toDouble_of_zero {d : Scaled} (h : d.digits = 0) : d.toDouble = 0 := by
  have htrimmed : d.trimmed.digits = 0 :=
    Nat.eq_zero_of_le_zero ((Scaled.digits_trimmed_le _).trans_eq h)
  rw [Scaled.toDouble]
  exact if_pos htrimmed

theorem shortest_digits_pos {y : Float} (hy : Positive y) (tie : Tie) :
    0 < (shortest tie y).digits := by
  refine Nat.pos_of_ne_zero fun h0 => ?_
  have hbeq := hy.beq_zero
  rw [← toDouble_shortest hy tie, toDouble_of_zero h0] at hbeq
  revert hbeq
  decide

/-- A finite double is zero, or has a positive magnitude. -/
theorem abs_cases (hx : x.isFinite = true) :
    ((x == 0) = true ∧ x.abs = 0) ∨ ((x == 0) = false ∧ Positive x.abs) := by
  change (view x).isFinite = true at hx
  have hnan : x.isNaN = false := by
    rw [Double.isNaN_eq_false_iff]
    rintro hv
    rw [hv] at hx
    cases hx
  have hbeq : (x == 0) = true ↔ Double.value x = 0 := by
    rw [Double.beq_iff, Double.value_zero]
    exact ⟨fun h => h.2.2, fun h => ⟨hnan, rfl, h⟩⟩
  rw [Bool.eq_false_iff, ne_eq, hbeq, Double.value]
  cases hv : view x with
  | notANumber | infinity s =>
    rw [hv] at hx
    cases hx
  | zero s => exact .inl ⟨rfl, Double.eq_of_view (by rw [Double.view_abs, hv]; rfl)⟩
  | finite s m e h =>
    refine .inr ⟨?_, m, e, h, by rw [Double.view_abs, hv]; rfl⟩
    have hpos := Double.dyadic_pos h e
    cases s with
    | positive => exact EReal.coe_ne_zero.mpr hpos.ne'
    | negative => exact EReal.coe_ne_zero.mpr (neg_ne_zero.mpr hpos.ne')

/-- Without its sign a finite double is written as digits with a point, and they are
read as its magnitude. -/
theorem exists_renderMagnitude (hw : l.wholeFraction = true) (hp : l.positional = none)
    (hx : x.isFinite = true) :
    ∃ whole fraction, Pointed (l.renderMagnitude x) whole fraction ∧
      Scaled.toDouble ⟨naturalOf (whole ++ fraction), 0 - fraction.length⟩ = x.abs := by
  unfold Layout.renderMagnitude
  rw [hw, hp]
  rcases abs_cases hx with ⟨h0, habs⟩ | ⟨h0, hpos⟩
  · rw [if_pos h0, habs]
    exact ⟨['0'], ['0'], ⟨rfl, whole_zero, digits_zero⟩, toDouble_of_zero rfl⟩
  · rw [h0, if_neg (by decide)]
    obtain ⟨whole, fraction, htext, hread⟩ :=
      exists_pointed (shortest_digits_pos hpos l.tie) (shortest l.tie x.abs).exponent
    exact ⟨whole, fraction, htext, hread.trans (toDouble_shortest hpos l.tie)⟩

end VirtualMarket.Decimal
