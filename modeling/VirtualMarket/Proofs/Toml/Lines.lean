/-
VirtualMarket.Proofs.Toml.Lines — headers and definitions, line by line.

A line that is a header or a definition under a bare name is one statement, and what
follows it is read as if it stood alone.  So a text is read by reading its lines.
-/
import VirtualMarket.Proofs.Toml.Scalar
import VirtualMarket.Toml.Parser

namespace VirtualMarket.Toml

/-! ## Bare names -/

/-- A name that stands without quotes. -/
structure Bare (name : String) : Prop where
  nonempty : name.toList ≠ []
  all : ∀ c ∈ name.toList, isBare c = true

instance (name : String) : Decidable (Bare name) :=
  decidable_of_iff ((!name.toList.isEmpty && name.toList.all isBare) = true) <| by
    rw [Bool.and_eq_true, List.all_eq_true, Bool.not_eq_true', List.isEmpty_eq_false_iff]
    exact ⟨fun h => ⟨h.1, h.2⟩, fun h => ⟨h.1, h.2⟩⟩

variable {name : String} {c d : Char} {rest value : List Char} {item : Item}

theorem Bare.exists_cons (h : Bare name) :
    ∃ first tail, name.toList = first :: tail ∧ isBare first = true := by
  obtain ⟨first, tail, hname⟩ := List.exists_cons_of_ne_nil h.nonempty
  exact ⟨first, tail, hname, h.all first (hname ▸ List.mem_cons_self)⟩

theorem isBlank_eq_false (hspace : c ≠ ' ') (htab : c ≠ '\t') : isBlank c = false := by
  rw [isBlank, Bool.or_eq_false_iff, beq_eq_false_iff_ne, beq_eq_false_iff_ne]
  exact ⟨hspace, htab⟩

theorem skipBlank_of_not (h : isBlank c = false) : skipBlank (c :: rest) = c :: rest :=
  List.dropWhile_cons_of_neg (by simp [h])

theorem readKeyPart_bare (h : Bare name) (hc : isBare c = false) :
    readKeyPart (name.toList ++ c :: rest) = some (name, c :: rest) := by
  have htake : (name.toList ++ c :: rest).takeWhile isBare = name.toList := by
    rw [List.takeWhile_append_of_pos h.all, List.takeWhile_cons_of_neg (by simp [hc]),
      List.append_nil]
  have hdrop : (name.toList ++ c :: rest).dropWhile isBare = c :: rest := by
    rw [List.dropWhile_append_of_pos h.all, List.dropWhile_cons_of_neg (by simp [hc])]
  obtain ⟨first, tail, hname, hfirst⟩ := h.exists_cons
  rw [readKeyPart, htake, hdrop]
  · simp [h.nonempty]
  · rw [hname]
    exact fun _ heq => ne_of_test hfirst rfl (List.cons.inj heq).1
  · rw [hname]
    exact fun _ heq => ne_of_test hfirst rfl (List.cons.inj heq).1

/-- A bare name is a key of one part, up to what is neither blank nor a point. -/
theorem readKey_bare (h : Bare name) (hc : isBare c = false)
    (hrest : skipBlank (c :: rest) = d :: value) (hd : d ≠ '.') :
    readKey (name.toList ++ c :: rest) = some ([name], d :: value) := by
  have hskip : skipBlank (name.toList ++ c :: rest) = name.toList ++ c :: rest := by
    obtain ⟨first, tail, hname, hfirst⟩ := h.exists_cons
    rw [hname]
    exact skipBlank_of_not (isBlank_eq_false (ne_of_test hfirst rfl) (ne_of_test hfirst rfl))
  rw [readKey, deepest, readKeyWithin, hskip, readKeyPart_bare h hc]
  simp only [Option.bind_eq_bind, Option.bind_some, hrest]
  split
  · rename_i heq
    exact absurd (List.cons.inj heq).1 hd
  · rfl

/-! ## Values -/

/-- What opens a value of another kind, or is skipped before a value. -/
def Opener (c : Char) : Prop :=
  c = '[' ∨ c = '\x7b' ∨ c = '"' ∨ c = '\'' ∨ c = ' ' ∨ c = '\t'

/-- Numbers and truth values start with no quote, bracket or blank. -/
theorem not_opener_of_scalar? {result : Item × List Char}
    (h : scalar? (c :: rest) = some result) : ¬ Opener c := by
  have hnone : Opener c → scalar? (c :: rest) = none := by
    intro hc
    have hdigit : Decimal.isDigit c = false := by
      rcases hc with rfl | rfl | rfl | rfl | rfl | rfl <;> rfl
    have hscalar : scalar? (c :: rest) = (moment? (c :: rest)).or (number? (c :: rest)) := by
      rcases hc with rfl | rfl | rfl | rfl | rfl | rfl <;> rfl
    rw [hscalar, moment?_eq_none hdigit]
    rcases hc with rfl | rfl | rfl | rfl | rfl | rfl <;> rfl
  intro hc
  rw [hnone hc] at h
  cases h

theorem readValue_scalar (fuel depth : Nat) (h : ¬ Opener c) :
    readValue (fuel + 1) depth (c :: rest) = scalar? (c :: rest) := by
  rw [readValue]
  all_goals
    intro _ heq
    refine h ?_
    rw [(List.cons.inj heq).1]
    simp [Opener]

/-! ## Statements -/

theorem readStatement_header (h : Bare name) :
    readStatement ('[' :: (name.toList ++ ']' :: rest)) = some (.header [name], rest) := by
  have hkey : readKey (name.toList ++ ']' :: rest) = some ([name], ']' :: rest) :=
    readKey_bare h rfl (skipBlank_of_not rfl) (by decide)
  obtain ⟨first, tail, hname, hfirst⟩ := h.exists_cons
  rw [readStatement]
  · simp only [hkey, Option.bind_eq_bind, Option.bind_some]
  · rw [hname]
    exact fun _ heq => ne_of_test hfirst rfl (List.cons.inj heq).1

theorem readStatement_define (h : Bare name)
    (hvalue : scalar? (value ++ '\n' :: rest) = some (item, '\n' :: rest)) :
    readStatement (name.toList ++ ' ' :: '=' :: ' ' :: (value ++ '\n' :: rest)) =
      some (.define [name] item, '\n' :: rest) := by
  obtain ⟨c, after, hafter⟩ : ∃ c after, value ++ '\n' :: rest = c :: after :=
    List.exists_cons_of_ne_nil (List.append_ne_nil_of_right_ne_nil _ (List.cons_ne_nil _ _))
  rw [hafter] at hvalue ⊢
  have hopener := not_opener_of_scalar? hvalue
  have hblank : isBlank c = false :=
    isBlank_eq_false (fun hc => hopener (by simp [Opener, hc]))
      fun hc => hopener (by simp [Opener, hc])
  have hskip : skipBlank (' ' :: c :: after) = c :: after := skipBlank_of_not hblank
  have hkey : readKey (name.toList ++ ' ' :: '=' :: ' ' :: c :: after) =
      some ([name], '=' :: ' ' :: c :: after) := readKey_bare h rfl rfl (by decide)
  obtain ⟨first, tail, hname, hfirst⟩ := h.exists_cons
  rw [readStatement]
  · simp only [hkey, hskip, readValue_scalar _ _ hopener, hvalue, Option.bind_eq_bind,
      Option.bind_some]
  · rw [hname]
    exact fun _ heq => ne_of_test hfirst rfl (List.cons.inj heq).1
  · rw [hname]
    exact fun _ heq => ne_of_test hfirst rfl (List.cons.inj heq).1

/-! ## Lines -/

/-- A text has these statements, read in as many lines as it has characters. -/
def Reads (text : List Char) (statements : List Statement) : Prop :=
  ∀ lines, text.length < lines → readStatements lines text = some statements

variable {text : List Char} {statements : List Statement} {statement : Statement}

theorem reads_nil : Reads [] [] := by
  intro lines hlines
  obtain ⟨lines, rfl⟩ := Nat.exists_eq_add_of_lt hlines
  rfl

/-- An empty line says nothing. -/
theorem Reads.empty (h : Reads rest statements) : Reads ('\n' :: rest) statements := by
  intro lines hlines
  cases lines with
  | zero => cases hlines
  | succ lines =>
    have hrest := h lines (Nat.lt_of_succ_lt_succ hlines)
    have hend : endLine? ('\n' :: rest) = some rest := rfl
    rw [readStatements, hend]
    cases rest with
    | nil =>
      cases lines with
      | zero => cases hrest
      | succ lines => exact hrest
    | cons c rest => exact hrest

theorem endLine?_of_not (hblank : isBlank c = false) (hcomment : c ≠ '#')
    (hend : atLineEnd (c :: rest) = false) : endLine? (c :: rest) = none := by
  have hskip : skipComment (skipBlank (c :: rest)) = c :: rest := by
    rw [skipBlank_of_not hblank, skipComment]
    exact fun _ heq => hcomment (List.cons.inj heq).1
  simp [endLine?, hskip, hend]

/-- A line with a statement comes before the statements of what follows. -/
theorem Reads.line (h : Reads rest statements) (hc : isBare c = true ∨ c = '[')
    (hstatement : readStatement (c :: text) = some (statement, '\n' :: rest))
    (hlength : rest.length < text.length) : Reads (c :: text) (statement :: statements) := by
  intro lines hlines
  cases lines with
  | zero => cases hlines
  | succ lines =>
    have hne {d : Char} (hd : isBare d = false) (hbracket : d ≠ '[') : c ≠ d := by
      rcases hc with hc | rfl
      · exact ne_of_test hc hd
      · exact hbracket.symm
    have hblank : isBlank c = false :=
      isBlank_eq_false (hne rfl (by decide)) (hne rfl (by decide))
    have hend : atLineEnd (c :: text) = false := by
      unfold atLineEnd
      split
      · rename_i heq
        exact absurd (List.cons.inj heq).1 (hne rfl (by decide))
      · rename_i heq
        exact absurd (List.cons.inj heq).1 (hne rfl (by decide))
      · rfl
    have hnext : endLine? ('\n' :: rest) = some rest := rfl
    have hrest : readStatements lines rest = some statements := h lines (by
      rw [List.length_cons] at hlines
      omega)
    rw [readStatements, endLine?_of_not hblank (hne rfl (by decide)) hend]
    simp only [skipBlank_of_not hblank, hstatement, hnext, hrest, Option.bind_eq_bind,
      Option.bind_some, Option.map_some]

theorem Reads.header (h : Reads rest statements) (hname : Bare name) :
    Reads ('[' :: (name.toList ++ ']' :: '\n' :: rest)) (.header [name] :: statements) := by
  refine h.line (.inr rfl) (readStatement_header hname) ?_
  simp only [List.length_append, List.length_cons]
  omega

theorem Reads.define (h : Reads rest statements) (hname : Bare name)
    (hvalue : scalar? (value ++ '\n' :: rest) = some (item, '\n' :: rest)) :
    Reads (name.toList ++ ' ' :: '=' :: ' ' :: (value ++ '\n' :: rest))
      (.define [name] item :: statements) := by
  have hread := readStatement_define hname hvalue
  obtain ⟨first, tail, heq, hfirst⟩ := hname.exists_cons
  rw [heq, List.cons_append] at hread ⊢
  refine h.line (.inl hfirst) hread ?_
  simp only [List.length_append, List.length_cons]
  omega

end VirtualMarket.Toml
