/-
VirtualMarket.Proofs.Decimal.Integer — the texts of integers.

Reading stops at the first digit that carries the number over the limit, and
later digits only make a number larger, so what is refused on the way would have
been refused at the end.  A text is read if it follows the grammar and the number
that it denotes is in range, however many leading zeros there are.  Any other text is
refused for the first character that cannot be read.
-/
import VirtualMarket.Decimal.Numeral

namespace VirtualMarket.Decimal

/-! ## Digits -/

/-- One or more ASCII digits. -/
structure Digits (text : List Char) : Prop where
  nonempty : text ≠ []
  all : ∀ c ∈ text, isDigit c = true

/-- The number that digits give after those of a value. -/
def onto (value : Nat) (digits : List Char) : Nat :=
  digits.foldl (fun value c => 10 * value + (digitValue? c).getD 0) value

@[simp] theorem onto_nil (value : Nat) : onto value [] = value := rfl

@[simp] theorem onto_cons (value : Nat) (c : Char) (rest : List Char) :
    onto value (c :: rest) = onto (10 * value + (digitValue? c).getD 0) rest := rfl

theorem naturalOf_eq (digits : List Char) : naturalOf digits = onto 0 digits := rfl

theorem le_onto (value : Nat) (digits : List Char) : value ≤ onto value digits := by
  induction digits generalizing value with
  | nil => exact Nat.le_refl value
  | cons c rest ih =>
    have := ih (10 * value + (digitValue? c).getD 0)
    rw [onto_cons]
    omega

/-- Digits end at the first character that is none, however the text is split there. -/
theorem digits_append_inj {a b rest rest' : List Char} {c d : Char}
    (h : a ++ c :: rest = b ++ d :: rest') (ha : ∀ c ∈ a, isDigit c = true)
    (hc : isDigit c = false) (hb : ∀ c ∈ b, isDigit c = true) (hd : isDigit d = false) :
    a = b ∧ c :: rest = d :: rest' := by
  have htake := congrArg (List.takeWhile isDigit) h
  rw [List.takeWhile_append_of_pos ha, List.takeWhile_append_of_pos hb,
    List.takeWhile_cons_of_neg (by simp [hc]), List.takeWhile_cons_of_neg (by simp [hd]),
    List.append_nil, List.append_nil] at htake
  subst htake
  exact ⟨rfl, List.append_cancel_left h⟩

variable {limit value n : Nat} {beyond : IntegerFlaw} {text : List Char}

/-- A number that does not exceed the limit has been read digit by digit. -/
theorem readMagnitude_eq_ok (hv : value ≤ limit) :
    readMagnitude limit beyond value text = .ok n ↔
      (∀ c ∈ text, isDigit c = true) ∧ onto value text = n ∧ n ≤ limit := by
  induction text generalizing value with
  | nil =>
    simp only [readMagnitude, Except.ok.injEq, List.not_mem_nil, false_implies, implies_true,
      true_and, onto_nil]
    exact ⟨fun h => ⟨h, h ▸ hv⟩, fun h => h.1⟩
  | cons c rest ih =>
    unfold readMagnitude
    cases hc : digitValue? c with
    | none => simp [isDigit, hc]
    | some d =>
      have hdigit : isDigit c = true := by rw [isDigit, hc]; rfl
      rw [onto_cons, hc, Option.getD_some]
      simp only [List.forall_mem_cons, hdigit, true_and]
      split
      · rename_i hlt
        have := le_onto (10 * value + d) rest
        exact iff_of_false nofun fun h => by omega
      · rename_i hlt
        exact ih (by omega)

/-! ## Signs -/

/-- The texts of an integer: an optional sign and digits.  Leading zeros are
allowed, and so is a minus before zero. -/
inductive Denotes : List Char → Int → Prop where
  | unsigned {digits : List Char} (h : Digits digits) : Denotes digits (naturalOf digits)
  | plus {digits : List Char} (h : Digits digits) : Denotes ('+' :: digits) (naturalOf digits)
  | minus {digits : List Char} (h : Digits digits) : Denotes ('-' :: digits) (-naturalOf digits)

theorem Digits.not_sign {c : Char} {rest : List Char} (h : Digits (c :: rest)) :
    c ≠ '+' ∧ c ≠ '-' := by
  have := h.all c List.mem_cons_self
  constructor <;> rintro rfl <;> revert this <;> decide

theorem Digits.head?_ne (h : Digits text) :
    text.head? ≠ some '+' ∧ text.head? ≠ some '-' := by
  constructor <;> intro hsign <;> obtain ⟨rest, rfl⟩ := List.head?_eq_some_iff.mp hsign
  · exact h.not_sign.1 rfl
  · exact h.not_sign.2 rfl

/-- What is made of the digits of a number that does not exceed the limit. -/
theorem map_readMagnitude_eq_ok {f : Nat → Int} {z : Int} (hne : text ≠ []) :
    (readMagnitude limit beyond 0 text).map f = .ok z ↔
      Digits text ∧ naturalOf text ≤ limit ∧ f (naturalOf text) = z := by
  constructor
  · intro h
    cases hr : readMagnitude limit beyond 0 text with
    | error flaw => simp [hr, Except.map] at h
    | ok n =>
      obtain rfl : f n = z := by simpa [hr, Except.map] using h
      obtain ⟨hall, rfl, hle⟩ := (readMagnitude_eq_ok (Nat.zero_le _)).mp hr
      exact ⟨⟨hne, hall⟩, hle, rfl⟩
  · rintro ⟨hd, hle, rfl⟩
    rw [(readMagnitude_eq_ok (Nat.zero_le _)).mpr ⟨hd.all, rfl, hle⟩]
    rfl

section

variable {range : IntegerRange} {z : Int} {rest : List Char}

theorem denotes_plus_iff : Denotes ('+' :: rest) z ↔ Digits rest ∧ (naturalOf rest : Int) = z := by
  constructor
  · intro h
    cases h with
    | unsigned h => exact absurd rfl h.not_sign.1
    | plus h => exact ⟨h, rfl⟩
  · rintro ⟨h, rfl⟩
    exact .plus h

theorem denotes_minus_iff :
    Denotes ('-' :: rest) z ↔ Digits rest ∧ -(naturalOf rest : Int) = z := by
  constructor
  · intro h
    cases h with
    | unsigned h => exact absurd rfl h.not_sign.2
    | minus h => exact ⟨h, rfl⟩
  · rintro ⟨h, rfl⟩
    exact .minus h

theorem denotes_digits_iff (hp : text.head? ≠ some '+') (hm : text.head? ≠ some '-') :
    Denotes text z ↔ Digits text ∧ (naturalOf text : Int) = z := by
  constructor
  · intro h
    cases h with
    | unsigned h => exact ⟨h, rfl⟩
    | plus h => exact absurd rfl hp
    | minus h => exact absurd rfl hm
  · rintro ⟨h, rfl⟩
    exact .unsigned h

theorem read_plus (hne : rest ≠ []) : range.read ('+' :: rest) =
    (readMagnitude range.high .tooLarge 0 rest).map Int.ofNat := by
  obtain ⟨c, rest, rfl⟩ := List.exists_cons_of_ne_nil hne
  rfl

theorem read_minus (hbelow : range.below ≠ 0) (hne : rest ≠ []) : range.read ('-' :: rest) =
    (readMagnitude range.below .tooSmall 0 rest).map fun n : Nat => -(n : Int) := by
  obtain ⟨c, rest, rfl⟩ := List.exists_cons_of_ne_nil hne
  rw [IntegerRange.read, if_neg hbelow]
  · cases readMagnitude range.below .tooSmall 0 (c :: rest) <;> rfl
  · nofun

theorem read_digits (hne : text ≠ []) (hp : text.head? ≠ some '+') (hm : text.head? ≠ some '-') :
    range.read text = (readMagnitude range.high .tooLarge 0 text).map Int.ofNat := by
  unfold IntegerRange.read
  split
  · exact absurd rfl hne
  · exact absurd rfl hp
  · exact absurd rfl hm
  · exact absurd rfl hp
  · exact absurd rfl hm
  · rfl

theorem contains_iff : range.contains z = true ↔ -(range.below : Int) ≤ z ∧ z ≤ range.high := by
  simp [IntegerRange.contains]

/-- Where there are numbers below zero, the texts of the grammar are read whose number
is in range. -/
theorem read_eq_ok (hbelow : range.below ≠ 0) :
    range.read text = .ok z ↔ Denotes text z ∧ range.contains z = true := by
  rw [contains_iff]
  have hnonneg {digits : List Char} (hne : digits ≠ []) :
      (readMagnitude range.high .tooLarge 0 digits).map Int.ofNat = .ok z ↔
        (Digits digits ∧ (naturalOf digits : Int) = z) ∧
          -(range.below : Int) ≤ z ∧ z ≤ range.high := by
    rw [map_readMagnitude_eq_ok hne]
    constructor
    · rintro ⟨hd, hle, rfl⟩
      exact ⟨⟨hd, rfl⟩, by simp only [Int.ofNat_eq_natCast]; omega⟩
    · rintro ⟨⟨hd, rfl⟩, -, hle⟩
      exact ⟨hd, by omega, rfl⟩
  by_cases hp : text.head? = some '+'
  · obtain ⟨rest, rfl⟩ := List.head?_eq_some_iff.mp hp
    rw [denotes_plus_iff]
    by_cases hne : rest = []
    · subst hne
      exact iff_of_false nofun fun h => h.1.1.nonempty rfl
    · rw [read_plus hne]
      exact hnonneg hne
  by_cases hm : text.head? = some '-'
  · obtain ⟨rest, rfl⟩ := List.head?_eq_some_iff.mp hm
    rw [denotes_minus_iff]
    by_cases hne : rest = []
    · subst hne
      exact iff_of_false nofun fun h => h.1.1.nonempty rfl
    · rw [read_minus hbelow hne, map_readMagnitude_eq_ok hne]
      constructor
      · rintro ⟨hd, hle, rfl⟩
        exact ⟨⟨hd, rfl⟩, by omega⟩
      · rintro ⟨⟨hd, rfl⟩, hle, -⟩
        exact ⟨hd, by omega, rfl⟩
  rw [denotes_digits_iff hp hm]
  by_cases hne : text = []
  · subst hne
    exact iff_of_false nofun fun h => h.1.1.nonempty rfl
  · rw [read_digits hne hp hm]
    exact hnonneg hne

end

/-! ## Texts that are refused -/

variable {why : IntegerFlaw}

/-- Digits are read onto a value up to a character that is refused: it is no digit, or
it is the first to carry the number over the limit. -/
def Breaks (limit : Nat) (beyond : IntegerFlaw) (value : Nat) (text : List Char)
    (why : IntegerFlaw) : Prop :=
  ∃ good c rest, text = good ++ c :: rest ∧ (∀ d ∈ good, isDigit d = true) ∧
    onto value good ≤ limit ∧
      ((isDigit c = false ∧ why = .invalidDigit) ∨
        (isDigit c = true ∧ limit < onto value (good ++ [c]) ∧ why = beyond))

theorem not_breaks_nil : ¬ Breaks limit beyond value [] why := by
  rintro ⟨good, c, rest, ht, -⟩
  exact List.append_ne_nil_of_right_ne_nil good (List.cons_ne_nil c rest) ht.symm

theorem breaks_cons {c : Char} (hv : value ≤ limit) :
    Breaks limit beyond value (c :: text) why ↔
      (isDigit c = false ∧ why = .invalidDigit) ∨
        (isDigit c = true ∧ limit < onto value [c] ∧ why = beyond) ∨
          (isDigit c = true ∧ onto value [c] ≤ limit ∧ Breaks limit beyond (onto value [c]) text why) := by
  constructor
  · rintro ⟨good, c', rest, ht, hgood, hle, hc⟩
    cases good with
    | nil =>
      cases ht
      exact hc.imp_right .inl
    | cons d good =>
      cases ht
      obtain ⟨hd, hgood⟩ := List.forall_mem_cons.mp hgood
      have hnext : onto value [c] ≤ limit := Nat.le_trans (le_onto _ good) hle
      exact .inr (.inr ⟨hd, hnext, good, c', rest, rfl, hgood, hle, hc⟩)
  · rintro (hc | hc | ⟨hd, -, good, c', rest, rfl, hgood, hle, hc⟩)
    · exact ⟨[], c, text, rfl, nofun, hv, .inl hc⟩
    · exact ⟨[], c, text, rfl, nofun, hv, .inr hc⟩
    · exact ⟨c :: good, c', rest, rfl, List.forall_mem_cons.mpr ⟨hd, hgood⟩, hle, hc⟩

/-- Reading fails like the first character that is refused. -/
theorem readMagnitude_eq_error (hv : value ≤ limit) :
    readMagnitude limit beyond value text = .error why ↔ Breaks limit beyond value text why := by
  induction text generalizing value with
  | nil => exact iff_of_false nofun not_breaks_nil
  | cons c rest ih =>
    rw [breaks_cons hv]
    unfold readMagnitude
    cases hc : digitValue? c with
    | none =>
      have hdigit : isDigit c = false := by rw [isDigit, hc]; rfl
      simp [hdigit, eq_comm]
    | some d =>
      have hdigit : isDigit c = true := by rw [isDigit, hc]; rfl
      have hnext : onto value [c] = 10 * value + d := by rw [onto_cons, hc]; rfl
      rw [hnext]
      simp only [hdigit, true_and, Bool.true_eq_false, false_and, false_or]
      split
      · rename_i hlt
        simp [hlt, Nat.not_le_of_lt hlt, eq_comm]
      · rename_i hle
        rw [ih (Nat.not_lt.mp hle)]
        simp [hle, Nat.not_lt.mp hle]

/-- Why a text is read as no integer of a range. -/
inductive Misread (range : IntegerRange) : List Char → IntegerFlaw → Prop where
  | empty : Misread range [] .empty
  | plusAlone : Misread range ['+'] .invalidDigit
  | minusAlone : Misread range ['-'] .invalidDigit
  | unsigned {text : List Char} {why : IntegerFlaw} (hp : text.head? ≠ some '+')
      (hm : text.head? ≠ some '-') (h : Breaks range.high .tooLarge 0 text why) :
      Misread range text why
  | plus {rest : List Char} {why : IntegerFlaw} (h : Breaks range.high .tooLarge 0 rest why) :
      Misread range ('+' :: rest) why
  | minus {rest : List Char} {why : IntegerFlaw} (h : Breaks range.below .tooSmall 0 rest why) :
      Misread range ('-' :: rest) why

theorem map_readMagnitude_eq_error {f : Nat → Int} :
    (readMagnitude limit beyond 0 text).map f = .error why ↔ Breaks limit beyond 0 text why := by
  rw [← readMagnitude_eq_error (Nat.zero_le limit)]
  cases readMagnitude limit beyond 0 text <;> simp [Except.map]

theorem Breaks.ne_nil (h : Breaks limit beyond value text why) : text ≠ [] := by
  rintro rfl
  exact not_breaks_nil h

/-- Where there are numbers below zero, a text is refused for what makes it no integer
of the range. -/
theorem read_eq_error {range : IntegerRange} (hbelow : range.below ≠ 0) :
    range.read text = .error why ↔ Misread range text why := by
  constructor
  · intro h
    unfold IntegerRange.read at h
    split at h
    · cases h
      exact .empty
    · cases h
      exact .plusAlone
    · cases h
      exact .minusAlone
    · exact .plus (map_readMagnitude_eq_error.mp h)
    · rename_i rest _
      rw [if_neg hbelow] at h
      refine .minus ((readMagnitude_eq_error (Nat.zero_le _)).mp ?_)
      cases hr : readMagnitude range.below .tooSmall 0 rest with
      | ok n =>
        rw [hr] at h
        cases h
      | error flaw =>
        rw [hr] at h
        cases h
        rfl
    · rename_i hplus hminus
      refine .unsigned (fun hp => ?_) (fun hm => ?_) (map_readMagnitude_eq_error.mp h)
      · obtain ⟨rest, rfl⟩ := List.head?_eq_some_iff.mp hp
        exact hplus rest rfl
      · obtain ⟨rest, rfl⟩ := List.head?_eq_some_iff.mp hm
        exact hminus rest rfl
  · intro h
    cases h with
    | empty | plusAlone | minusAlone => rfl
    | unsigned hp hm h =>
      rw [read_digits h.ne_nil hp hm]
      exact map_readMagnitude_eq_error.mpr h
    | plus h =>
      rw [read_plus h.ne_nil]
      exact map_readMagnitude_eq_error.mpr h
    | minus h =>
      rw [read_minus hbelow h.ne_nil]
      exact map_readMagnitude_eq_error.mpr h

end VirtualMarket.Decimal
