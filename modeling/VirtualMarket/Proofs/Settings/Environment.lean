/-
VirtualMarket.Proofs.Settings.Environment — variables as a source of settings.

A variable has a key in lower case, and the key is an address of one or two names.  If
no two variables have the same key, their order does not count: as a source they give
a key of a section the value of the one variable that has it.
-/
import Mathlib.Tactic.IntervalCases
import VirtualMarket.Proofs.Settings.Sources
import VirtualMarket.Settings.Environment

namespace VirtualMarket.Settings

/-! ## Names -/

/-- A name that an address can have as one of its parts. -/
structure Address.Name (name : String) : Prop where
  nonempty : name.toList ≠ []
  all : ∀ c ∈ name.toList, Address.isNameChar c = true

namespace Address

instance (name : String) : Decidable (Name name) :=
  decidable_of_iff ((!name.toList.isEmpty && name.toList.all isNameChar) = true) <| by
    rw [Bool.and_eq_true, List.all_eq_true, Bool.not_eq_true', List.isEmpty_eq_false_iff]
    exact ⟨fun h => ⟨h.1, h.2⟩, fun h => ⟨h.1, h.2⟩⟩

variable {a b : String}

theorem readName_append {rest : List Char} (h : Name a) (hr : ∀ c ∈ rest.head?, isNameChar c = false) :
    readName (a.toList ++ rest) = some (a, rest) := by
  have htake : (a.toList ++ rest).takeWhile isNameChar = a.toList := by
    rw [List.takeWhile_append_of_pos h.all]
    cases rest with
    | nil => simp
    | cons c rest => simp [hr c rfl]
  have hdrop : (a.toList ++ rest).dropWhile isNameChar = rest := by
    rw [List.dropWhile_append_of_pos h.all]
    cases rest with
    | nil => rfl
    | cons c rest => simp [hr c rfl]
  unfold readName
  rw [htake, hdrop]
  simp [h.nonempty]

theorem readName_name (h : Name a) : readName a.toList = some (a, []) := by
  have hread : readName (a.toList ++ []) = some (a, []) := readName_append h nofun
  rwa [List.append_nil] at hread

theorem readName_inner (h : Name a) (b : String) :
    readName (a.toList ++ '.' :: b.toList) = some (a, '.' :: b.toList) :=
  readName_append h (by rintro c ⟨⟩; decide)

theorem read_name (h : Name a) : read a = [.entry a] := by
  simp [read, readName_name h, readSteps]

theorem toList_inner (a b : String) : (a ++ "." ++ b).toList = a.toList ++ '.' :: b.toList := by
  simp

theorem read_inner (ha : Name a) (hb : Name b) : read (a ++ "." ++ b) = [.entry a, .entry b] := by
  have hsteps (fuel : Nat) : readSteps (fuel + 1) ('.' :: b.toList) = some [.entry b] := by
    simp [readSteps, readName_name hb]
  rw [read, toList_inner, readName_inner ha]
  simp [hsteps]

/-- Two names with a point between them are told apart at their point. -/
theorem inner_inj {c d : String} (ha : Name a) (hc : Name c) (h : a ++ "." ++ b = c ++ "." ++ d) :
    a = c ∧ b = d := by
  have hread := readName_inner ha b
  rw [← toList_inner, h, toList_inner, readName_inner hc] at hread
  simp only [Option.some.injEq, Prod.mk.injEq, List.cons.injEq, true_and] at hread
  exact ⟨hread.1.symm, (String.toList_inj.mp hread.2).symm⟩

end Address

/-! ## Lower case -/

theorem toLower_eq_or (c : Char) : c.toLower = c ∨ ∃ n, 65 ≤ n ∧ n ≤ 90 ∧ c = Char.ofNat n := by
  by_cases h : c.val ≥ 'A'.val ∧ c.val ≤ 'Z'.val
  · exact .inr ⟨c.toNat, h.1, h.2, c.ofNat_toNat.symm⟩
  · exact .inl (dif_neg h)

theorem lowerChar_lowerChar (c : Char) : lowerChar (lowerChar c) = lowerChar c := by
  by_cases hk : c = '\u212a'
  · subst hk
    decide
  · have hlower : lowerChar c = c.toLower := if_neg hk
    rcases toLower_eq_or c with h | ⟨n, hlow, hhigh, rfl⟩
    · rw [hlower, h, hlower, h]
    · interval_cases n <;> decide

/-! ## Variables -/

namespace Environment

/-- The keys that variables have: a name, or two with a point between them. -/
inductive Key : String → Prop where
  | name {a : String} (h : Address.Name a) : Key a
  | inner {a b : String} (ha : Address.Name a) (hb : Address.Name b) : Key (a ++ "." ++ b)

/-- Variables that set one key each, none of them a whole section. -/
structure Regular (vars : Variables) : Prop where
  keys : ∀ entry ∈ source vars, Key entry.1
  distinct : ((source vars).map Prod.fst).Nodup
  inside : ∀ entry ∈ source vars, ∀ names ∈ fieldNames, entry.1 ≠ names.1

/-- The value of the variable for a key of a section. -/
def valueFor? (vars : Variables) (sectionName key : String) : Option Tree :=
  (source vars).lookup (sectionName ++ "." ++ key)

theorem mem_source {vars : Variables} {address : String} {value : Tree} :
    (address, value) ∈ source vars ↔
      ∃ name text, (name, text) ∈ vars ∧ address? name = some address ∧ valueOf text = value := by
  simp [source]

theorem scalar_valueOf (text : String) : (valueOf text).Scalar := by
  unfold valueOf
  split
  · trivial
  · split
    · trivial
    · split
      · trivial
      · split <;> trivial

theorem mem_of_afterMark {m text rest : List Char} (h : afterMark? m text = some rest) {c : Char}
    (hc : c ∈ rest) : c ∈ text := by
  induction m generalizing text with
  | nil =>
    unfold afterMark? at h
    cases h
    exact hc
  | cons d m ih =>
    cases text with
    | nil => cases h
    | cons e text =>
      unfold afterMark? at h
      split at h
      · exact List.mem_cons_of_mem _ (ih h)
      · cases h

theorem mem_of_dotted {text : List Char} {c : Char} (hc : c ∈ dotted text) : c = '.' ∨ c ∈ text := by
  fun_induction dotted text with
  | case1 rest ih =>
    rcases List.mem_cons.mp hc with rfl | hc
    · exact .inl rfl
    · exact (ih hc).imp_right fun h => List.mem_cons_of_mem _ (List.mem_cons_of_mem _ h)
  | case2 d rest _ ih =>
    rcases List.mem_cons.mp hc with rfl | hc
    · exact .inr List.mem_cons_self
    · exact (ih hc).imp_right (List.mem_cons_of_mem _)
  | case3 => exact .inr hc

/-- The key of a variable is in lower case. -/
theorem lowerChar_of_address {name address : String} (h : address? name = some address) {c : Char}
    (hc : c ∈ address.toList) : lowerChar c = c := by
  obtain ⟨rest, hrest, rfl⟩ := Option.map_eq_some_iff.mp h
  rw [String.toList_ofList] at hc
  rcases mem_of_dotted hc with rfl | hc
  · decide
  · have hmem := mem_of_afterMark hrest hc
    rw [lowerName, String.toList_ofList] at hmem
    obtain ⟨d, -, rfl⟩ := List.mem_map.mp hmem
    exact lowerChar_lowerChar d

variable {vars : Variables} {sectionName key : String}

theorem lowerName_of_forall {name : String} (h : ∀ c ∈ name.toList, lowerChar c = c) :
    lowerName name = name := by
  rw [lowerName, List.map_congr_left h, List.map_id', String.ofList_toList]

theorem assigned_of_key {address : String} {value : Tree} (ha : Key address)
    (hlower : ∀ c ∈ address.toList, lowerChar c = c) (hv : value.Scalar)
    (hs : Address.Name sectionName) :
    Tree.assigned sectionName key (Address.read address) value =
      if address = sectionName ++ "." ++ key then [value] else [] := by
  cases ha with
  | name h =>
    have hentries : value.entries = [] := by
      cases value with
      | table => cases hv
      | _ => rfl
    have hne : address ≠ sectionName ++ "." ++ key := by
      rintro rfl
      have hdot := h.all '.' (by simp)
      revert hdot
      decide
    rw [Address.read_name h, Tree.assigned, hentries, if_neg hne]
    split <;> rfl
  | @inner a b ha hb =>
    rw [Address.toList_inner] at hlower
    have hla : lowerName a = a :=
      lowerName_of_forall fun c hc => hlower c (List.mem_append_left _ hc)
    have hlb : lowerName b = b := lowerName_of_forall fun c hc =>
      hlower c (List.mem_append_right _ (List.mem_cons_of_mem _ hc))
    rw [Address.read_inner ha hb, Tree.assigned, hla, hlb]
    by_cases h : a ++ "." ++ b = sectionName ++ "." ++ key
    · rw [if_pos h, if_pos (Address.inner_inj ha hs h)]
    · rw [if_neg h, if_neg fun hboth => h (by rw [hboth.1, hboth.2])]

theorem plain_of_key {keys : List String} {address : String} {value : Tree} (ha : Key address)
    (hlower : ∀ c ∈ address.toList, lowerChar c = c) (hv : value.Scalar)
    (hinside : address ≠ sectionName) :
    Tree.Plain sectionName keys (Address.read address) value := by
  cases ha with
  | name h =>
    rw [Address.read_name h]
    exact fun heq => absurd ((lowerName_of_forall hlower).symm.trans heq) hinside
  | inner ha hb =>
    rw [Address.read_inner ha hb]
    exact fun _ _ => ⟨rfl, hv⟩

/-- As a source, variables give a key the value of the one that has it. -/
theorem assignments_eq (h : Regular vars) (hs : Address.Name sectionName) :
    (Tree.assignments sectionName key (source vars)).getLast? = valueFor? vars sectionName key := by
  have hassigned : Tree.assignments sectionName key (source vars) =
      (source vars).flatMap fun e => if e.1 = sectionName ++ "." ++ key then [e.2] else [] := by
    refine List.flatMap_congr fun e he => ?_
    obtain ⟨name, text, -, haddress, hvalue⟩ := mem_source.mp he
    exact assigned_of_key (h.keys e he) (fun _ => lowerChar_of_address haddress)
      (hvalue ▸ scalar_valueOf text) hs
  rw [hassigned, flatMap_eq_lookup h.distinct, valueFor?]
  exact getLast?_toList _

theorem plain_source (h : Regular vars) : Tree.PlainSource fieldNames (source vars) := by
  intro e he names hnames
  obtain ⟨name, text, -, haddress, hvalue⟩ := mem_source.mp he
  exact plain_of_key (h.keys e he) (fun _ => lowerChar_of_address haddress)
    (hvalue ▸ scalar_valueOf text) (h.inside e he names hnames)

/-- A key has the value of the variable that sets it. -/
theorem valueFor?_eq_some_iff (h : Regular vars) {value : Tree} :
    valueFor? vars sectionName key = some value ↔
      ∃ name text, (name, text) ∈ vars ∧ address? name = some (sectionName ++ "." ++ key) ∧
        valueOf text = value :=
  (lookup_eq_some_iff_mem h.distinct).trans mem_source

theorem Regular.perm {vars' : Variables} (h : Regular vars)
    (hp : (source vars').Perm (source vars)) : Regular vars' where
  keys e he := h.keys e (hp.mem_iff.mp he)
  distinct := (hp.map Prod.fst).nodup_iff.mpr h.distinct
  inside e he := h.inside e (hp.mem_iff.mp he)

/-- The order of variables does not count. -/
theorem valueFor?_perm {vars' : Variables} (h : Regular vars)
    (hp : (source vars').Perm (source vars)) :
    valueFor? vars' sectionName key = valueFor? vars sectionName key := by
  ext value
  rw [valueFor?, valueFor?, lookup_eq_some_iff_mem (h.perm hp).distinct,
    lookup_eq_some_iff_mem h.distinct, hp.mem_iff]

/-! ### The mark -/

def marked (name : String) : Bool :=
  mark.isPrefixOf (lowerName name).toList

theorem afterMark?_eq_none {m text : List Char} (h : m.isPrefixOf text = false) :
    afterMark? m text = none := by
  induction m generalizing text with
  | nil => cases h
  | cons d m ih =>
    cases text with
    | nil => rfl
    | cons c text =>
      rw [List.isPrefixOf, Bool.and_eq_false_iff] at h
      unfold afterMark?
      split
      · rename_i heq
        exact ih (h.resolve_left (by simp [heq]))
      · rfl

/-- Variables without the mark set nothing. -/
theorem source_filter_marked (vars : Variables) :
    source (vars.filter fun e => marked e.1) = source vars := by
  rw [source, source, List.filterMap_filter]
  refine List.filterMap_congr fun ⟨name, text⟩ _ => ?_
  by_cases hmark : marked name = true
  · rw [if_pos hmark]
  · have hnone : address? name = none := by
      rw [address?, afterMark?_eq_none (eq_false_of_ne_true hmark), Option.map_none]
    simp [hmark, hnone]

/-- Marked variables in any order are the same source. -/
theorem source_perm {vars' : Variables}
    (hp : (vars'.filter fun e => marked e.1).Perm (vars.filter fun e => marked e.1)) :
    (source vars').Perm (source vars) := by
  rw [← source_filter_marked vars', ← source_filter_marked vars]
  exact hp.filterMap _

/-- In capital or small letters, the variable of a field has its key. -/
theorem address?_variableName : ∀ names ∈ fieldNames, ∀ field ∈ names.2, ∀ name,
    lowerName name = lowerName (variableName names.1 field) →
      address? name = some (names.1 ++ "." ++ field) := by
  have hcapital : ∀ names ∈ fieldNames, ∀ field ∈ names.2,
      address? (variableName names.1 field) = some (names.1 ++ "." ++ field) := by decide +kernel
  intro names hnames field hfield name hname
  rw [← hcapital names hnames field hfield, address?, address?, hname]

end Environment

end VirtualMarket.Settings
