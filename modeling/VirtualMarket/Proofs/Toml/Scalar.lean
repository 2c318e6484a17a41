/-
VirtualMarket.Proofs.Toml.Scalar — numbers read up to the end of their line.

A number is read up to the first character that cannot go on, and the point and the
line end are such characters.  Dates and times are tried first, but want a minus or
a colon after a few digits, so no plain number is one.
-/
import VirtualMarket.Proofs.Decimal.Layout
import VirtualMarket.Toml.Scalar

namespace VirtualMarket.Toml

open Decimal (Whole Pointed isDigit digitValue? doubleOf infinity)

/-! ## No dates -/

/-- What stands after the digits of a number: a point or the end of the line. -/
def Stop (c : Char) : Prop :=
  c = '.' ∨ c = '\n'

variable {c : Char} {rest digits whole fraction text : List Char}

theorem Stop.not_isDigit (h : Stop c) : isDigit c = false := by
  rcases h with rfl | rfl <;> rfl

theorem Stop.ne {d : Char} (h : Stop c) (hpoint : d ≠ '.') (hend : d ≠ '\n') : c ≠ d := by
  rcases h with rfl | rfl
  · exact hpoint.symm
  · exact hend.symm

/-- A test tells characters apart. -/
theorem ne_of_test {d : Char} {test : Char → Bool} (h : test c = true) (hd : test d = false) :
    c ≠ d := by
  rintro rfl
  rw [h] at hd
  cases hd

theorem twoDigits?_eq_some {n : Nat} (h : twoDigits? text = some (n, rest)) :
    ∃ a b, text = a :: b :: rest ∧ isDigit a = true ∧ isDigit b = true := by
  match text with
  | [] => cases h
  | [_] => cases h
  | a :: b :: tail =>
    simp only [twoDigits?, Option.bind_eq_bind, Option.bind_eq_some_iff, Option.some.injEq,
      Prod.mk.injEq] at h
    obtain ⟨va, ha, vb, hb, -, rfl⟩ := h
    exact ⟨a, b, rfl, by rw [isDigit, ha]; rfl, by rw [isDigit, hb]; rfl⟩

theorem expect?_eq_some {c : Char} (h : expect? c text = some rest) : text = c :: rest := by
  match text with
  | [] => cases h
  | d :: tail =>
    rw [expect?] at h
    by_cases hd : d = c
    · rw [if_pos hd, Option.some.injEq] at h
      rw [hd, h]
    · rw [if_neg hd] at h
      cases h

/-- Digits come first in a date or time, and a minus or a colon after them. -/
theorem exists_of_moment? {result : Item × List Char} (h : moment? text = some result) :
    ∃ digits c rest, text = digits ++ c :: rest ∧ Decimal.Digits digits ∧ (c = '-' ∨ c = ':') := by
  obtain ⟨after, h, -⟩ := Option.map_eq_some_iff.mp h
  unfold skipMoment? at h
  split at h
  · rename_i after' hdate
    simp only [skipDate?, Option.bind_eq_bind, Option.bind_eq_some_iff] at hdate
    obtain ⟨⟨_, rest₁⟩, h₁, ⟨_, rest₂⟩, h₂, rest₃, h₃, -⟩ := hdate
    obtain ⟨a, b, rfl, ha, hb⟩ := twoDigits?_eq_some h₁
    obtain ⟨a', b', rfl, ha', hb'⟩ := twoDigits?_eq_some h₂
    obtain rfl : rest₂ = '-' :: rest₃ := expect?_eq_some h₃
    refine ⟨[a, b, a', b'], '-', rest₃, rfl, ⟨by simp, ?_⟩, .inl rfl⟩
    simp [ha, hb, ha', hb']
  · simp only [skipTime?, skipMinutes?, Option.bind_eq_bind, Option.bind_eq_some_iff] at h
    obtain ⟨_, ⟨⟨_, rest₁⟩, h₁, rest₂, h₂, -⟩, -⟩ := h
    obtain ⟨a, b, rfl, ha, hb⟩ := twoDigits?_eq_some h₁
    obtain rfl : rest₁ = ':' :: rest₂ := expect?_eq_some h₂
    refine ⟨[a, b], ':', rest₂, rfl, ⟨by simp, ?_⟩, .inr rfl⟩
    simp [ha, hb]

/-- What starts with no digit is no date and no time. -/
theorem moment?_eq_none (h : isDigit c = false) : moment? (c :: rest) = none := by
  rw [Option.eq_none_iff_forall_ne_some]
  intro result hresult
  obtain ⟨digits, d, rest', heq, hdigits, -⟩ := exists_of_moment? hresult
  obtain ⟨a, digits, rfl⟩ := List.exists_cons_of_ne_nil hdigits.nonempty
  cases heq
  rw [hdigits.all c List.mem_cons_self] at h
  cases h

/-- A number that goes on with a point or ends is no date and no time. -/
theorem moment?_digits (hdigits : ∀ c ∈ digits, isDigit c = true) (hc : Stop c) :
    moment? (digits ++ c :: rest) = none := by
  rw [Option.eq_none_iff_forall_ne_some]
  intro result hresult
  obtain ⟨digits', d, rest', heq, hdigits', hd⟩ := exists_of_moment? hresult
  have hsame := (List.cons.inj (Decimal.digits_append_inj heq hdigits hc.not_isDigit hdigits'.all
    (by rcases hd with rfl | rfl <;> rfl)).2).1
  rcases hc with rfl | rfl <;> rcases hd with rfl | rfl <;> cases hsame

/-! ## Numbers -/

theorem isDigitOf_ten (c : Char) : isDigitOf 10 c = isDigit c := by
  rw [isDigitOf, Text.hexValue?, isDigit, digitValue?]
  split
  · rename_i h
    have hlow : '0'.toNat ≤ c.toNat := h.1
    have hhigh : c.toNat ≤ '9'.toNat := h.2
    have hlt : c.toNat - 48 < 10 := by
      change c.toNat ≤ 57 at hhigh
      omega
    simp [hlt]
  · have hletter {low : Char} (k : Nat) (hlow : low ≤ c) (hk : k + 10 ≤ low.toNat) :
        ¬ c.toNat - k < 10 := by
      have hlow : low.toNat ≤ c.toNat := hlow
      omega
    split
    · rename_i h
      simpa using hletter 87 h.1 (by decide)
    · split
      · rename_i h
        simpa using hletter 55 h.1 (by decide)
      · rfl

theorem moreDigits_eq (hdigits : ∀ c ∈ digits, isDigit c = true) (hc : Stop c) :
    moreDigits 10 (digits ++ c :: rest) = some (digits, c :: rest) := by
  induction digits with
  | nil =>
    have hline : c ≠ '_' := hc.ne (by decide) (by decide)
    rw [List.nil_append, moreDigits, isDigitOf_ten, hc.not_isDigit, if_neg (by decide),
      if_neg hline]
    exact fun _ _ h _ => hline h
  | cons d digits ih =>
    have hd := hdigits d List.mem_cons_self
    have hline : d ≠ '_' := ne_of_test hd rfl
    rw [List.cons_append, moreDigits, isDigitOf_ten, hd, if_pos rfl,
      ih fun c hc => hdigits c (List.mem_cons_of_mem _ hc)]
    · rfl
    · exact fun _ _ h _ => hline h

theorem digits?_eq (h : Decimal.Digits digits) (hc : Stop c) :
    digits? 10 (digits ++ c :: rest) = some (digits, c :: rest) := by
  obtain ⟨d, digits, rfl⟩ := List.exists_cons_of_ne_nil h.nonempty
  have hmore : moreDigits 10 (digits ++ c :: rest) = some (digits, c :: rest) :=
    moreDigits_eq (fun c hc => h.all c (List.mem_cons_of_mem _ hc)) hc
  rw [List.cons_append, digits?, isDigitOf_ten, h.all d List.mem_cons_self, if_pos rfl, hmore]
  rfl

/-- Digits are read up to a point or the end of the line. -/
theorem wholeDigits?_eq (h : Whole digits) (hc : Stop c) :
    wholeDigits? (digits ++ c :: rest) = some (digits, c :: rest) := by
  rcases h.leading with rfl | hzero
  · rfl
  · obtain ⟨d, digits, rfl⟩ := List.exists_cons_of_ne_nil h.nonempty
    have hd : d ≠ '0' := fun hd => hzero (by rw [hd]; rfl)
    rw [wholeDigits?, digits?_eq h.toDigits hc]
    exact fun _ heq => hd (List.cons.inj heq).1

theorem exponent?_end : exponent? ('\n' :: rest) = some (none, '\n' :: rest) := rfl

theorem decimal?_whole (negative : Bool) (h : Whole digits) :
    decimal? negative (digits ++ '\n' :: rest) =
      (wholeNumber? (if negative then -Decimal.naturalOf digits else Decimal.naturalOf digits)).map
        fun item => (item, '\n' :: rest) := by
  have hfraction : fraction? ('\n' :: rest) = some (none, '\n' :: rest) := rfl
  simp only [decimal?, wholeDigits?_eq h (.inr rfl), hfraction, exponent?_end,
    Option.bind_eq_bind, Option.bind_some]
  rw [Option.map_eq_bind]
  rfl

theorem decimal?_pointed (negative : Bool) (h : Pointed text whole fraction) :
    decimal? negative (text ++ '\n' :: rest) =
      (finiteReal? (doubleOf negative whole fraction 0)).map fun item => (item, '\n' :: rest) := by
  have hfraction : fraction? ('.' :: (fraction ++ '\n' :: rest)) =
      some (some fraction, '\n' :: rest) := by
    rw [fraction?, digits?_eq h.after (.inr rfl)]
    rfl
  have htext : text ++ '\n' :: rest = whole ++ '.' :: (fraction ++ '\n' :: rest) := by
    rw [h.eq, List.append_assoc, List.cons_append]
  simp only [decimal?, htext, wholeDigits?_eq h.before (.inl rfl), hfraction, exponent?_end,
    Option.bind_eq_bind, Option.bind_some]
  rw [Option.map_eq_bind]
  rfl

theorem finiteReal?_eq {x : Float} (h : x.isFinite = true) :
    finiteReal? x = some (.real x) := by
  change (Double.view x).isFinite = true at h
  have hinfinity : Double.view infinity = .infinity .positive := rfl
  have hbeq : (x == infinity) = false := by
    rw [Bool.eq_false_iff, ne_eq, Double.beq_iff, Double.value, Double.value, hinfinity]
    rintro ⟨-, -, hvalue⟩
    cases hv : Double.view x with
    | notANumber | infinity s =>
      rw [hv] at h
      cases h
    | zero s =>
      rw [hv] at hvalue
      exact EReal.zero_ne_top hvalue
    | finite s m e hm =>
      rw [hv] at hvalue
      cases s <;> exact EReal.coe_ne_top _ hvalue
  rw [finiteReal?, hbeq]
  rfl

/-! ## Signs -/

theorem unsigned?_eq (negative : Bool) (h : isDigit c = true) :
    unsigned? negative (c :: rest) = decimal? negative (c :: rest) := by
  rw [unsigned?]
  · exact fun _ heq => ne_of_test h rfl (List.cons.inj heq).1
  · exact fun _ heq => ne_of_test h rfl (List.cons.inj heq).1

/-- A number without a mark for its base is read in base ten. -/
theorem number?_eq (h : Whole digits) (hc : Stop c) :
    number? (digits ++ c :: rest) = decimal? false (digits ++ c :: rest) := by
  rcases h.leading with rfl | hzero
  · rcases hc with rfl | rfl <;> rfl
  · obtain ⟨d, digits, rfl⟩ := List.exists_cons_of_ne_nil h.nonempty
    have hd := h.all d List.mem_cons_self
    have hd0 : d ≠ '0' := fun hd => hzero (by rw [hd]; rfl)
    rw [List.cons_append, number?, unsigned?_eq false hd]
    all_goals
      intro _ heq
      first
        | exact hd0 (List.cons.inj heq).1
        | exact ne_of_test hd rfl (List.cons.inj heq).1

theorem number?_minus (h : Whole digits) :
    number? ('-' :: (digits ++ c :: rest)) = decimal? true (digits ++ c :: rest) := by
  obtain ⟨d, digits, rfl⟩ := List.exists_cons_of_ne_nil h.nonempty
  exact unsigned?_eq true (h.all d List.mem_cons_self)

/-- What starts with a digit or a minus is no word. -/
theorem scalar?_eq (h : isDigit c = true ∨ c = '-') :
    scalar? (c :: rest) = (moment? (c :: rest)).or (number? (c :: rest)) := by
  have hne {d : Char} (hd : isDigit d = false) (hminus : d ≠ '-') : c ≠ d := by
    rcases h with h | rfl
    · exact ne_of_test h hd
    · exact hminus.symm
  rw [scalar?]
  · exact fun _ heq => hne rfl (by decide) (List.cons.inj heq).1
  · exact fun _ heq => hne rfl (by decide) (List.cons.inj heq).1

/-- A number with its sign is read in base ten. -/
theorem scalar?_signed (negative : Bool) (h : Whole digits) (hc : Stop c) :
    scalar? (if negative then '-' :: (digits ++ c :: rest) else digits ++ c :: rest) =
      decimal? negative (digits ++ c :: rest) := by
  cases negative with
  | true =>
    have hnone : moment? ('-' :: (digits ++ c :: rest)) = none := moment?_eq_none rfl
    rw [if_pos rfl, scalar?_eq (.inr rfl), hnone, Option.none_or, number?_minus h]
  | false =>
    have hnone : moment? (digits ++ c :: rest) = none := moment?_digits h.all hc
    have hscalar : scalar? (digits ++ c :: rest) =
        (moment? (digits ++ c :: rest)).or (number? (digits ++ c :: rest)) := by
      obtain ⟨d, digits, rfl⟩ := List.exists_cons_of_ne_nil h.nonempty
      exact scalar?_eq (.inl (h.all d List.mem_cons_self))
    rw [if_neg (by decide), hscalar, hnone, Option.none_or, number?_eq h hc]

/-! ## Words -/

theorem scalar?_nan : scalar? ('n' :: 'a' :: 'n' :: rest) = some (.real (0 / 0), rest) := by
  change (moment? ('n' :: 'a' :: 'n' :: rest)).or _ = _
  rw [moment?_eq_none rfl]
  rfl

theorem scalar?_infinity : scalar? ('i' :: 'n' :: 'f' :: rest) = some (.real infinity, rest) := by
  change (moment? ('i' :: 'n' :: 'f' :: rest)).or _ = _
  rw [moment?_eq_none rfl]
  rfl

theorem scalar?_minus_infinity :
    scalar? ('-' :: 'i' :: 'n' :: 'f' :: rest) = some (.real (-infinity), rest) := by
  change (moment? ('-' :: 'i' :: 'n' :: 'f' :: rest)).or _ = _
  rw [moment?_eq_none rfl]
  rfl

end VirtualMarket.Toml
