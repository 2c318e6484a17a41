/-
VirtualMarket.Proofs.Text.Blank — white space around a text.

Trimming takes away as much white space as there is at either end.  What is left is
the only part of the text that has white space around it and none at its own ends,
so a text may be trimmed wherever such a part is known.
-/
import Mathlib
import VirtualMarket.Text.Blank

namespace VirtualMarket.Text

variable {text body before after : List Char}

/-- Nothing but white space. -/
def Blank (text : List Char) : Prop :=
  ∀ c ∈ text, isBlank c = true

theorem blank_reverse_iff : Blank text.reverse ↔ Blank text := by
  simp only [Blank, List.mem_reverse]

/-- A part of a text with white space around it, and none at its own ends. -/
structure Trims (text body : List Char) : Prop where
  around : ∃ before after, text = before ++ body ++ after ∧ Blank before ∧ Blank after
  first : ∀ c ∈ body.head?, isBlank c = false
  last : ∀ c ∈ body.getLast?, isBlank c = false

theorem dropWhile_blank (hb : Blank before) (hf : ∀ c ∈ body.head?, isBlank c = false) :
    (before ++ body).dropWhile isBlank = body := by
  rw [List.dropWhile_append_of_pos hb]
  cases body with
  | nil => rfl
  | cons c rest => exact List.dropWhile_cons_of_neg (by simp [hf c rfl])

/-- A text begins with white space, up to a character that is none. -/
theorem exists_dropWhile_blank (text : List Char) :
    (∃ before, text = before ++ text.dropWhile isBlank ∧ Blank before) ∧
      ∀ c ∈ (text.dropWhile isBlank).head?, isBlank c = false := by
  refine ⟨⟨text.takeWhile isBlank, List.takeWhile_append_dropWhile.symm,
    fun c hc => List.mem_takeWhile_imp hc⟩, fun c hc => ?_⟩
  have hnot := text.head?_dropWhile_not isBlank
  rw [Option.mem_def.mp hc] at hnot
  exact hnot

theorem trims_trimBlank (text : List Char) : Trims text (trimBlank text) := by
  obtain ⟨⟨before, htext, hb⟩, hfirst⟩ := exists_dropWhile_blank text
  obtain ⟨⟨after, hrest, ha⟩, hlast⟩ :=
    exists_dropWhile_blank (text.dropWhile isBlank).reverse
  have hrest : text.dropWhile isBlank = trimBlank text ++ after.reverse := by
    rw [← List.reverse_inj, hrest, trimBlank]
    simp
  refine ⟨⟨before, after.reverse, ?_, hb, blank_reverse_iff.mpr ha⟩, fun c hc => ?_, ?_⟩
  · rw [List.append_assoc, ← hrest]
    exact htext
  · refine hfirst c ?_
    rw [hrest, List.head?_append, Option.mem_def.mp hc]
    rfl
  · rw [trimBlank]
    simpa using hlast

theorem Trims.trimBlank_eq (h : Trims text body) : trimBlank text = body := by
  obtain ⟨⟨before, after, rfl, hb, ha⟩, hfirst, hlast⟩ := h
  rw [trimBlank, List.append_assoc]
  by_cases hne : body = []
  · subst hne
    rw [List.nil_append, List.dropWhile_append_of_pos hb, List.dropWhile_eq_nil_iff.mpr ha]
    rfl
  · rw [dropWhile_blank hb, List.reverse_append, dropWhile_blank (blank_reverse_iff.mpr ha),
      List.reverse_reverse]
    · rwa [List.head?_reverse]
    · rwa [List.head?_append_of_ne_nil _ hne]

/-- Trimming finds the one part of a text that has white space around it and none at
its own ends. -/
theorem trims_iff : Trims text body ↔ trimBlank text = body :=
  ⟨Trims.trimBlank_eq, fun h => h ▸ trims_trimBlank text⟩

end VirtualMarket.Text
