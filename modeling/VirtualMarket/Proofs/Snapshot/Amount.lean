/-
VirtualMarket.Proofs.Snapshot.Amount — the texts of amounts.

Four tests stand between the text of a field and its amount: it must be an integer of
128 bits, not negative, with few enough decimals and of at most 96 bits.  Together they
say that the text spells out a natural number that fits, and what is read depends on
that number alone.  A text that is refused is refused by the first test it fails.
-/
import VirtualMarket.Proofs.Decimal.Layout
import VirtualMarket.Proofs.Snapshot.FixedPoint
import VirtualMarket.Proofs.Text.Blank

namespace VirtualMarket

open Decimal Text

/-! ## Spellings -/

/-- The text is that of an integer, with white space around it. -/
def Spells (text : List Char) (z : Int) : Prop :=
  ∃ before body after, text = before ++ body ++ after ∧ Blank before ∧ Blank after ∧
    Denotes body z

variable {text body digits : List Char} {z z' : Int} {why : IntegerFlaw}

theorem Decimal.Denotes.spells (h : Denotes text z) : Spells text z :=
  ⟨[], text, [], (List.append_nil text).symm, nofun, nofun, h⟩

theorem isBlank_of_isDigit {c : Char} (h : isDigit c = true) : isBlank c = false := by
  rw [isDigit_eq, Char.isDigit_iff_toNat] at h
  obtain ⟨hl, hh⟩ : 48 ≤ c.toNat ∧ c.toNat ≤ 57 := h
  simp only [isBlank, blankRanges, List.any_cons, List.any_nil, Bool.or_false, Bool.or_eq_false_iff,
    Bool.and_eq_false_iff, decide_eq_false_iff_not]
  omega

/-- No integer has white space in its text. -/
theorem isBlank_of_denotes (h : Denotes body z) : ∀ c ∈ body, isBlank c = false := by
  cases h with
  | unsigned h => exact fun c hc => isBlank_of_isDigit (h.all c hc)
  | plus h => exact List.forall_mem_cons.mpr ⟨rfl, fun c hc => isBlank_of_isDigit (h.all c hc)⟩
  | minus h => exact List.forall_mem_cons.mpr ⟨rfl, fun c hc => isBlank_of_isDigit (h.all c hc)⟩

theorem spells_iff : Spells text z ↔ Denotes (trimBlank text) z := by
  constructor
  · rintro ⟨before, body, after, ht, hb, ha, h⟩
    have hbody := isBlank_of_denotes h
    have htrims : Trims text body := ⟨⟨before, after, ht, hb, ha⟩,
      fun c hc => hbody c (List.mem_of_mem_head? hc),
      fun c hc => hbody c (List.mem_of_mem_getLast? hc)⟩
    rwa [htrims.trimBlank_eq]
  · intro h
    obtain ⟨before, after, ht, hb, ha⟩ := (trims_trimBlank text).around
    exact ⟨before, _, after, ht, hb, ha, h⟩

/-- No text denotes two integers. -/
theorem Decimal.Denotes.unique (h : Denotes body z) (h' : Denotes body z') : z = z' := by
  cases h with
  | unsigned h => exact ((denotes_digits_iff h.head?_ne.1 h.head?_ne.2).mp h').2
  | plus h => exact (denotes_plus_iff.mp h').2
  | minus h => exact (denotes_minus_iff.mp h').2

theorem Spells.unique (h : Spells text z) (h' : Spells text z') : z = z' :=
  (spells_iff.mp h).unique (spells_iff.mp h')

/-- A sign before the digits of a natural number that leaves it as it is. -/
inductive IdleSign : List Char → Nat → Prop where
  | none {n : Nat} : IdleSign [] n
  | plus {n : Nat} : IdleSign ['+'] n
  | minusZero : IdleSign ['-'] 0

/-- White space around a number, an idle sign and leading zeros are part of the spelling. -/
theorem spells_respelled {before sign after : List Char} (hd : Digits digits) (zeros : Nat)
    (hb : Blank before) (ha : Blank after) (hs : IdleSign sign (naturalOf digits)) :
    Spells (before ++ (sign ++ (List.replicate zeros '0' ++ digits)) ++ after)
      (naturalOf digits) := by
  refine ⟨before, _, after, rfl, hb, ha, ?_⟩
  have hz := hd.zeros_before zeros
  rw [← naturalOf_replicate_append zeros] at hs ⊢
  generalize hn : naturalOf (List.replicate zeros '0' ++ digits) = n at hs ⊢
  cases hs with
  | none => exact hn ▸ .unsigned hz
  | plus => exact hn ▸ .plus hz
  | minusZero =>
    have h := Denotes.minus hz
    rwa [hn] at h

/-! ## Reading -/

theorem Outcome.toOption_eq_some_iff {α : Type} {x : Outcome α} {a : α} :
    x.toOption = some a ↔ x = .ok a := by
  cases x <;> simp [Except.toOption]

namespace FixedPoint

theorem read_trimBlank_eq_ok :
    signed128.read (trimBlank text) = .ok z ↔ Spells text z ∧ signed128.contains z = true := by
  rw [read_eq_ok (by decide), spells_iff]

theorem read_trimBlank_eq_error :
    signed128.read (trimBlank text) = .error why ↔
      ∃ body, Trims text body ∧ Misread signed128 body why := by
  rw [read_eq_error (by decide)]
  simp only [trims_iff, exists_eq_left']

/-- The tests that the text of a field can fail.  Each comes after the tests before it
have been passed. -/
inductive Refuses (field raw : String) (decimals : Nat) : SnapshotFlaw → Prop where
  /-- The text is no integer of 128 bits. -/
  | unreadable {body : List Char} {why : IntegerFlaw} (ht : Trims raw.toList body)
      (h : Misread signed128 body why) : Refuses field raw decimals (.unreadable field raw why)
  | negative {z : Int} (h : Spells raw.toList z) (hr : signed128.contains z = true)
      (hz : z < 0) : Refuses field raw decimals (.negative field raw)
  | tooManyDecimals {n : Nat} (h : Spells raw.toList n) (hr : signed128.contains n = true)
      (hd : mostDecimals < decimals) :
      Refuses field raw decimals (.tooManyDecimals field raw decimals)
  | tooLarge {n : Nat} (h : Spells raw.toList n) (hr : signed128.contains n = true)
      (hd : decimals ≤ mostDecimals) (hn : largest < n) :
      Refuses field raw decimals (.tooLarge field raw)

variable {field raw : String} {decimals : Nat} {x : Float} {fault : Fault}

theorem decimals_le_of_decode (h : decode field raw decimals = .ok x) :
    decimals ≤ mostDecimals := by
  unfold decode at h
  split at h
  · cases h
  · split_ifs at h with hneg hmany hlarge
    exact Nat.not_lt.mp hmany

theorem amount_iff {n : Nat} : Amount raw n ↔ Spells raw.toList n ∧ n ≤ largest := by
  rw [Amount, spells_iff]

/-- What is accepted: the text of a natural number that fits, with few enough decimals. -/
theorem decode_eq_ok_iff :
    decode field raw decimals = .ok x ↔ decimals ≤ mostDecimals ∧
      ∃ n : Nat, Spells raw.toList n ∧ n ≤ largest ∧ x = toDouble n decimals := by
  constructor
  · intro h
    have hd := decimals_le_of_decode h
    obtain ⟨n, hn, hx⟩ := (decode_eq_ok hd).mp h
    obtain ⟨hs, hle⟩ := amount_iff.mp hn
    exact ⟨hd, n, hs, hle, hx⟩
  · rintro ⟨hd, n, hs, hle, hx⟩
    exact (decode_eq_ok hd).mpr ⟨n, amount_iff.mpr ⟨hs, hle⟩, hx⟩

/-- What is refused: a text fails like the first test that it fails. -/
theorem decode_eq_error_iff :
    decode field raw decimals = .error fault ↔
      ∃ flaw, fault = .invalidSnapshot flaw ∧ Refuses field raw decimals flaw := by
  constructor
  · intro h
    unfold decode at h
    split at h
    · rename_i why hread
      cases h
      obtain ⟨body, ht, hbody⟩ := read_trimBlank_eq_error.mp hread
      exact ⟨_, rfl, .unreadable ht hbody⟩
    · rename_i z hread
      obtain ⟨hspells, hrange⟩ := read_trimBlank_eq_ok.mp hread
      by_cases hneg : z < 0
      · rw [if_pos hneg] at h
        cases h
        exact ⟨_, rfl, .negative hspells hrange hneg⟩
      obtain ⟨n, rfl⟩ := Int.eq_ofNat_of_zero_le (Int.not_lt.mp hneg)
      rw [if_neg hneg] at h
      split_ifs at h with hmany hlarge
      · cases h
        exact ⟨_, rfl, .tooManyDecimals hspells hrange hmany⟩
      · cases h
        exact ⟨_, rfl, .tooLarge hspells hrange (Nat.not_lt.mp hmany) hlarge⟩
  · rintro ⟨flaw, rfl, h⟩
    cases h with
    | unreadable ht h => rw [decode, read_trimBlank_eq_error.mpr ⟨_, ht, h⟩]
    | negative h hr hz =>
      rw [decode, read_trimBlank_eq_ok.mpr ⟨h, hr⟩]
      exact if_pos hz
    | tooManyDecimals h hr hd =>
      rw [decode, read_trimBlank_eq_ok.mpr ⟨h, hr⟩]
      simp only [if_neg (Int.not_lt.mpr (Int.natCast_nonneg _)), if_pos hd]
    | tooLarge h hr hd hn =>
      rw [decode, read_trimBlank_eq_ok.mpr ⟨h, hr⟩]
      simp only [if_neg (Int.not_lt.mpr (Int.natCast_nonneg _)), if_neg (Nat.not_lt.mpr hd),
        Int.toNat_natCast, if_pos hn]

/-- Two texts of one integer are read alike. -/
theorem toOption_decode_congr {field' raw' : String} (h : Spells raw.toList z)
    (h' : Spells raw'.toList z) :
    (decode field' raw' decimals).toOption = (decode field raw decimals).toOption := by
  have hsame (n : Nat) : Spells raw'.toList n ↔ Spells raw.toList n :=
    ⟨fun hn => h'.unique hn ▸ h, fun hn => h.unique hn ▸ h'⟩
  refine Option.ext fun x => ?_
  rw [Outcome.toOption_eq_some_iff, Outcome.toOption_eq_some_iff, decode_eq_ok_iff,
    decode_eq_ok_iff]
  simp only [hsame]

/-- Exactly the amounts are accepted.  The text must spell out a natural number of at most
96 bits, with at most 28 decimals; all others are refused by the first test that they
fail.  What is read depends on the number and the decimals alone, so white space, an idle
sign and leading zeros make no difference. -/
theorem decode_accepts_amounts (field raw : String) (decimals : Nat) :
    (∀ x, decode field raw decimals = .ok x ↔ decimals ≤ mostDecimals ∧
        ∃ n : Nat, Spells raw.toList n ∧ n ≤ largest ∧ x = toDouble n decimals) ∧
      (∀ fault, decode field raw decimals = .error fault ↔
        ∃ flaw, fault = .invalidSnapshot flaw ∧ Refuses field raw decimals flaw) ∧
      (∀ (field' raw' : String) (z : Int), Spells raw.toList z → Spells raw'.toList z →
        (decode field' raw' decimals).toOption = (decode field raw decimals).toOption) ∧
      ∀ (field' : String) (before sign after : List Char) (zeros : Nat), Digits raw.toList →
        Blank before → Blank after → IdleSign sign (naturalOf raw.toList) →
          (decode field' (String.ofList
              (before ++ (sign ++ (List.replicate zeros '0' ++ raw.toList)) ++ after))
            decimals).toOption = (decode field raw decimals).toOption := by
  refine ⟨fun x => decode_eq_ok_iff, fun fault => decode_eq_error_iff,
    fun field' raw' z => toOption_decode_congr, ?_⟩
  intro field' before sign after zeros hd hb ha hs
  refine toOption_decode_congr (Denotes.unsigned hd).spells ?_
  rw [String.toList_ofList]
  exact spells_respelled hd zeros hb ha hs

/-- A minus zero in white space is read like zero, the largest amount is accepted and the
next is too large, and a negative number is refused as such before its decimals are
looked at. -/
theorem decode_accepts_amounts_extremes :
    (decode "D" "\t-000 " 6).toOption = (decode "D" "0" 6).toOption ∧
      (∃ x, decode "D" "79228162514264337593543950335" 18 = .ok x) ∧
      decode "D" "79228162514264337593543950336" 18 =
        .error (.invalidSnapshot (.tooLarge "D" "79228162514264337593543950336")) ∧
      decode "D" "-5" 29 = .error (.invalidSnapshot (.negative "D" "-5")) := by
  refine ⟨?_, ?_, ?_, ?_⟩
  · exact (decode_accepts_amounts "D" "0" 6).2.2.2 "D" ['\t'] ['-'] [' '] 2
      ⟨by simp, List.all_eq_true.mp (by decide +kernel)⟩
      (List.all_eq_true.mp (by decide +kernel))
      (List.all_eq_true.mp (by decide +kernel)) .minusZero
  · have hdigits : Digits "79228162514264337593543950335".toList :=
      ⟨by simp, List.all_eq_true.mp (by decide +kernel)⟩
    exact ⟨_, ((decode_accepts_amounts _ _ _).1 _).mpr
      ⟨by decide, _, (Denotes.unsigned hdigits).spells, by decide +kernel, rfl⟩⟩
  · have hdigits : Digits "79228162514264337593543950336".toList :=
      ⟨by simp, List.all_eq_true.mp (by decide +kernel)⟩
    exact ((decode_accepts_amounts _ _ _).2.1 _).mpr
      ⟨_, rfl, .tooLarge (Denotes.unsigned hdigits).spells (by decide +kernel) (by decide)
        (by decide +kernel)⟩
  · have hminus : Denotes "-5".toList (-5) := .minus ⟨by simp, List.all_eq_true.mp (by decide +kernel)⟩
    exact ((decode_accepts_amounts _ _ _).2.1 _).mpr
      ⟨_, rfl, .negative hminus.spells (by decide) (by decide)⟩

end FixedPoint

end VirtualMarket
