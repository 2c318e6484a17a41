/-
VirtualMarket.Proofs.Settings.Printer — written settings read back.

The text of settings is lines under section headers.  Read line by line it is a document
of the sections with their fields, and the tree of the document gives every section its
own values back.  What ties the two sides together is that the names written are the
names read.
-/
import VirtualMarket.Proofs.Settings.Layers
import VirtualMarket.Proofs.Settings.Written
import VirtualMarket.Proofs.Toml.Document

namespace VirtualMarket.Settings

/-! ## Lines -/

/-- Sections as tables of a document. -/
def tablesOf (parts : List WrittenSection) : List (String × Toml.Entries) :=
  parts.map fun part => (part.name, part.fields.map fun field => (field.1, field.2.item))

/-- Sections that can be written, under bare names of which no two are the same. -/
structure Writable (parts : List WrittenSection) : Prop where
  names : ∀ part ∈ parts, Toml.Bare part.name
  keys : ∀ part ∈ parts, ∀ field ∈ part.fields, Toml.Bare field.1
  fits : ∀ part ∈ parts, ∀ field ∈ part.fields, field.2.fits = true
  distinct : (parts.map WrittenSection.name).Nodup
  distinctKeys : ∀ part ∈ parts, (part.fields.map Prod.fst).Nodup

variable {parts : List WrittenSection}

theorem Writable.tables (h : Writable parts) : Toml.Tables (tablesOf parts) where
  names := by
    rintro _ ht
    obtain ⟨part, hpart, rfl⟩ := List.mem_map.mp ht
    exact h.names part hpart
  keys := by
    rintro _ ht _ he
    obtain ⟨part, hpart, rfl⟩ := List.mem_map.mp ht
    obtain ⟨field, hfield, rfl⟩ := List.mem_map.mp he
    exact h.keys part hpart field hfield
  distinct := by
    rw [tablesOf, List.map_map]
    exact h.distinct
  distinctKeys := by
    rintro _ ht
    obtain ⟨part, hpart, rfl⟩ := List.mem_map.mp ht
    rw [List.map_map]
    exact h.distinctKeys part hpart
  settled := by
    rintro _ ht _ he
    obtain ⟨part, hpart, rfl⟩ := List.mem_map.mp ht
    obtain ⟨field, hfield, rfl⟩ := List.mem_map.mp he
    exact field.2.settle?_item

section

variable {rest : List Char} {statements : List Toml.Statement}

theorem reads_fields {fields : List (String × Written)} (hnames : ∀ field ∈ fields, Toml.Bare field.1)
    (hfits : ∀ field ∈ fields, field.2.fits = true) (h : Toml.Reads rest statements) :
    Toml.Reads ((fields.flatMap fun (name, value) => fieldLine name value) ++ rest)
      ((fields.map fun field => Toml.Statement.define [field.1] field.2.item) ++ statements) := by
  induction fields with
  | nil => exact h
  | cons field more ih =>
    have hmore := ih (fun f hf => hnames f (List.mem_cons_of_mem _ hf))
      fun f hf => hfits f (List.mem_cons_of_mem _ hf)
    have hline := hmore.define (hnames field List.mem_cons_self)
      (Written.scalar?_text (hfits field List.mem_cons_self))
    simpa [fieldLine] using hline

theorem reads_section {part : WrittenSection} (hname : Toml.Bare part.name)
    (hkeys : ∀ field ∈ part.fields, Toml.Bare field.1)
    (hfits : ∀ field ∈ part.fields, field.2.fits = true) (h : Toml.Reads rest statements) :
    Toml.Reads (sectionLines part ++ rest)
      (Toml.tableStatements (part.name, part.fields.map fun field => (field.1, field.2.item)) ++
        statements) := by
  have hlines := (reads_fields hkeys hfits h).header hname
  simpa [sectionLines, Toml.tableStatements, Function.comp_def] using hlines

end

theorem Writable.tail {part : WrittenSection} (h : Writable (part :: parts)) : Writable parts where
  names p hp := h.names p (List.mem_cons_of_mem _ hp)
  keys p hp := h.keys p (List.mem_cons_of_mem _ hp)
  fits p hp := h.fits p (List.mem_cons_of_mem _ hp)
  distinct := (List.nodup_cons.mp h.distinct).2
  distinctKeys p hp := h.distinctKeys p (List.mem_cons_of_mem _ hp)

/-- The lines of sections are the statements of their tables. -/
theorem Writable.reads (h : Writable parts) :
    Toml.Reads (allLines parts) ((tablesOf parts).flatMap Toml.tableStatements) := by
  induction parts with
  | nil => exact Toml.reads_nil
  | cons part more ih =>
    have hmore := ih h.tail
    have hsection {rest : List Char} {statements : List Toml.Statement}
        (hrest : Toml.Reads rest statements) :=
      reads_section (h.names part List.mem_cons_self) (h.keys part List.mem_cons_self)
        (h.fits part List.mem_cons_self) hrest
    cases more with
    | nil =>
      have hlast := hsection Toml.reads_nil
      rw [List.append_nil] at hlast
      exact hlast
    | cons next more => exact hsection hmore.empty

theorem skipByteOrderMark_allLines (parts : List WrittenSection) :
    Toml.skipByteOrderMark (allLines parts) = allLines parts := by
  match parts with
  | [] => rfl
  | [_] => rfl
  | _ :: _ :: _ => rfl

/-- The text of sections is a document of their tables. -/
theorem Writable.parse?_eq (h : Writable parts) :
    Toml.parse? (String.ofList (allLines parts)) = some (Toml.tableEntries (tablesOf parts)) := by
  refine h.tables.parse?_eq ?_ ?_ <;> rw [String.toList_ofList]
  · exact skipByteOrderMark_allLines parts
  · exact h.reads

/-! ## Trees -/

theorem Written.scalar_item (w : Written) : (Tree.ofItem w.item).Scalar := by
  cases w <;> trivial

/-- Sections as the outermost names and values of a source. -/
def documentOf (parts : List WrittenSection) : List (String × Tree) :=
  parts.map fun part =>
    (part.name, .table (part.fields.map fun field => (field.1, Tree.ofItem field.2.item)))

theorem ofEntries_map {α : Type} (l : List α) (name : α → String) (item : α → Toml.Item) :
    Tree.ofEntries (l.map fun a => (name a, item a)) =
      l.map fun a => (name a, Tree.ofItem (item a)) := by
  induction l with
  | nil => rfl
  | cons a rest ih => rw [List.map_cons, Tree.ofEntries, ih, List.map_cons]

theorem ofEntries_tablesOf (parts : List WrittenSection) :
    Tree.ofEntries (Toml.tableEntries (tablesOf parts)) = documentOf parts := by
  rw [Toml.tableEntries, tablesOf, List.map_map, documentOf]
  refine (ofEntries_map parts _ _).trans (List.map_congr_left fun part _ => ?_)
  simp only [Tree.ofItem, ofEntries_map]

/-- The names of sections, each with those of its fields. -/
def namesOf (parts : List WrittenSection) : List (String × List String) :=
  parts.map fun part => (part.name, part.fields.map Prod.fst)

/-- The names written are the names read. -/
theorem namesOf_sections (s : Settings) : namesOf s.sections = fieldNames := rfl

/-- Names are bare and in lower case. -/
theorem bare_fieldNames : ∀ names ∈ fieldNames, (Toml.Bare names.1 ∧ lowerName names.1 = names.1) ∧
    ∀ key ∈ names.2, Toml.Bare key ∧ lowerName key = key := by
  decide +kernel

theorem distinct_fieldNames :
    (fieldNames.map Prod.fst).Nodup ∧ ∀ names ∈ fieldNames, names.2.Nodup := by
  simp [fieldNames, curveSection, trackingSection, sizingSection, planSection, seedSection]

theorem mem_fieldNames {s : Settings} {part : WrittenSection} (h : part ∈ s.sections) :
    (part.name, part.fields.map Prod.fst) ∈ fieldNames :=
  namesOf_sections s ▸ List.mem_map_of_mem h

/-- Settings whose integers have 64 bits can be written. -/
theorem writable_sections {s : Settings}
    (hfits : ∀ part ∈ s.sections, ∀ field ∈ part.fields, field.2.fits = true) :
    Writable s.sections where
  names part h := (bare_fieldNames _ (mem_fieldNames h)).1.1
  keys part h field hf := ((bare_fieldNames _ (mem_fieldNames h)).2 _ (List.mem_map_of_mem hf)).1
  fits := hfits
  distinct := by
    have hnames : s.sections.map WrittenSection.name = fieldNames.map Prod.fst := rfl
    rw [hnames]
    exact distinct_fieldNames.1
  distinctKeys part h := distinct_fieldNames.2 _ (mem_fieldNames h)

/-! ## Reading the tree -/

theorem address_name_of_bare {name : String} (h : Toml.Bare name) : Address.Name name where
  nonempty := h.nonempty
  all c hc := by rw [Address.isNameChar, h.all c hc, Bool.true_or]

theorem lowered_eq_self {entries : List (String × Tree)}
    (h : ∀ e ∈ entries, lowerName e.1 = e.1) : lowered entries = entries := by
  rw [lowered]
  refine (List.map_congr_left fun e he => ?_).trans (List.map_id entries)
  rw [h e he]
  rfl

section

variable (s : Settings)

/-- Outermost names stand for themselves, and all names are in lower case. -/
theorem names_sections : ∀ e ∈ documentOf s.sections, Address.read e.1 = [.entry e.1] ∧
    lowerName e.1 = e.1 ∧ ∀ f ∈ e.2.entries, lowerName f.1 = f.1 := by
  rintro _ he
  obtain ⟨part, hpart, rfl⟩ := List.mem_map.mp he
  obtain ⟨⟨hbare, hlower⟩, hkeys⟩ := bare_fieldNames _ (mem_fieldNames hpart)
  refine ⟨Address.read_name (address_name_of_bare hbare), hlower, ?_⟩
  rintro _ hf
  obtain ⟨field, hfield, rfl⟩ := List.mem_map.mp hf
  exact (hkeys _ (List.mem_map_of_mem hfield)).2

theorem plain_sections : Tree.PlainSource fieldNames (documentOf s.sections) := by
  intro e he names _
  rw [(names_sections s e he).1]
  obtain ⟨part, -, rfl⟩ := List.mem_map.mp he
  refine fun _ => ⟨⟨_, rfl⟩, fun f hf _ => ?_⟩
  obtain ⟨field, -, rfl⟩ := List.mem_map.mp hf
  exact field.2.scalar_item

theorem lowered_sections : lowered (documentOf s.sections) = documentOf s.sections :=
  lowered_eq_self fun e he => (names_sections s e he).2.1

theorem nodup_sections : ((documentOf s.sections).map Prod.fst).Nodup :=
  distinct_fieldNames.1

theorem distinct_sections : Distinct (documentOf s.sections) where
  outside := by
    rw [lowered_sections]
    exact nodup_sections s
  inside e he := by
    rw [lowered_eq_self (names_sections s e he).2.2]
    obtain ⟨part, hpart, rfl⟩ := List.mem_map.mp he
    change ((part.fields.map fun field => (field.1, Tree.ofItem field.2.item)).map Prod.fst).Nodup
    rw [List.map_map]
    exact distinct_fieldNames.2 _ (mem_fieldNames hpart)

end

/-- The value that sections have for a key. -/
def written? (parts : List WrittenSection) (sectionName : String) : Fields := fun key =>
  ((documentOf parts).lookup sectionName).bind fun t => t.entries.lookup key

theorem standing?_sections (s : Settings) (sectionName key : String) :
    standing? (documentOf s.sections) sectionName key = written? s.sections sectionName key := by
  rw [standing?, written?, lowered_sections]
  cases ht : (documentOf s.sections).lookup sectionName with
  | none => rfl
  | some t =>
    have hmem := (lookup_eq_some_iff_mem (nodup_sections s)).mp ht
    rw [Option.bind_some, Option.bind_some, lowered_eq_self (names_sections s _ hmem).2.2]

/-- The sections of settings have their values back. -/
theorem ofFields?_sections {s : Settings}
    (hinterval : Decimal.signed64.contains s.tracking.tradeInterval = true)
    (hsteps : Decimal.unsigned64.contains s.sizing.maxSteps = true)
    (hstart : Decimal.signed64.contains s.seed.startTime = true) :
    ofFields? (written? s.sections) = some s := by
  have hcurve : curveSection.read (written? s.sections curveSection.name) = some s.curve := by
    simp [curveSection, written?, documentOf, sections, List.lookup, Tree.entries, Fields.real?,
      Written.item, Tree.ofItem, Tree.toReal?]
  have htracking :
      trackingSection.read (written? s.sections trackingSection.name) = some s.tracking := by
    simp [trackingSection, written?, documentOf, sections, List.lookup, Tree.entries, Fields.real?,
      Fields.integer?, Written.item, Tree.ofItem, Tree.toReal?, Tree.toIntegerIn?, hinterval]
  have hsizing : sizingSection.read (written? s.sections sizingSection.name) = some s.sizing := by
    simp [sizingSection, written?, documentOf, sections, List.lookup, Tree.entries, Fields.real?,
      Fields.natural?, Written.item, Tree.ofItem, Tree.toReal?, Tree.toIntegerIn?, hsteps]
  have hplan : planSection.read (written? s.sections planSection.name) = some s.plan := by
    simp [planSection, written?, documentOf, sections, List.lookup, Tree.entries, Fields.real?,
      Fields.boolean?, Written.item, Tree.ofItem, Tree.toReal?, Tree.toBoolean?]
  have hseed : seedSection.read (written? s.sections seedSection.name) = some s.seed := by
    simp [seedSection, written?, documentOf, sections, List.lookup, Tree.entries, Fields.real?,
      Fields.integer?, Written.item, Tree.ofItem, Tree.toReal?, Tree.toIntegerIn?, hstart]
  rw [ofFields?, hcurve, htracking, hsizing, hplan, hseed]
  rfl

/-- Whether all integers have 64 bits. -/
theorem all_fits (s : Settings) :
    (s.sections.all fun part => part.fields.all fun field => field.2.fits) =
      (Decimal.signed64.contains s.tracking.tradeInterval &&
        (Decimal.signed64.contains s.sizing.maxSteps &&
          Decimal.signed64.contains s.seed.startTime)) := by
  simp [sections, Written.fits]

theorem signed64_contains_natCast (n : Nat) :
    Decimal.signed64.contains (n : Int) = true ↔ n ≤ 2 ^ 63 - 1 := by
  rw [Decimal.contains_iff]
  simp only [Decimal.signed64]
  omega

theorem unsigned64_contains_of_signed64 {n : Nat}
    (h : Decimal.signed64.contains (n : Int) = true) :
    Decimal.unsigned64.contains (n : Int) = true := by
  rw [signed64_contains_natCast] at h
  rw [Decimal.contains_iff]
  simp only [Decimal.unsigned64]
  omega

/-- The text of settings is read as the settings, and tested. -/
theorem parse_sections {s : Settings}
    (hinterval : Decimal.signed64.contains s.tracking.tradeInterval = true)
    (hsteps : Decimal.signed64.contains s.sizing.maxSteps = true)
    (hstart : Decimal.signed64.contains s.seed.startTime = true) :
    print s = .ok (String.ofList (allLines s.sections)) ∧
      parse (String.ofList (allLines s.sections)) = (do s.validate; .ok s) := by
  have hall : (s.sections.all fun part => part.fields.all fun field => field.2.fits) = true := by
    rw [all_fits, hinterval, hsteps, hstart]
    rfl
  have hwritable : Writable s.sections := writable_sections fun part hpart field hfield =>
    List.all_eq_true.mp (List.all_eq_true.mp hall part hpart) field hfield
  have hfields : ∀ names ∈ fieldNames, ∀ key ∈ names.2, written? s.sections names.1 key =
      ([documentOf s.sections].flatMap (Tree.assignments names.1 key)).getLast? := by
    intro names _ key _
    rw [List.flatMap_singleton, ← standing?_sections, assignments_eq_standing (distinct_sections s)
      fun e he => (names_sections s e he).1, getLast?_toList]
  have hread := ofTree_ofSources (List.forall_mem_singleton.mpr (plain_sections s)) hfields
  refine ⟨by rw [print, hall]; rfl, ?_⟩
  rw [parse, hwritable.parse?_eq]
  change Settings.ofTree (.ofSources [Tree.ofEntries _]) = _
  rw [ofEntries_tablesOf, hread, ofFields,
    ofFields?_sections hinterval (unsigned64_contains_of_signed64 hsteps) hstart]

/-! ## Round trip -/

/-- Settings that pass their test are written and read back as they were, unless they
want more steps than a signed integer of 64 bits can hold: then they are not written. -/
theorem print_parse (s : Settings) (hvalid : s.validate = .ok ())
    (hinterval : Decimal.signed64.contains s.tracking.tradeInterval = true)
    (hstart : Decimal.signed64.contains s.seed.startTime = true) :
    (s.sizing.maxSteps ≤ 2 ^ 63 - 1 → ∃ text, print s = .ok text ∧ parse text = .ok s) ∧
      (2 ^ 63 - 1 < s.sizing.maxSteps → print s = .error .unwritable ∧
        SettingsFlaw.unwritable.headline = "Failed to serialize configuration") := by
  constructor
  · intro hsteps
    obtain ⟨hprint, hparse⟩ :=
      parse_sections hinterval ((signed64_contains_natCast _).mpr hsteps) hstart
    rw [hvalid] at hparse
    exact ⟨_, hprint, hparse⟩
  · intro hsteps
    have hlarge : Decimal.signed64.contains s.sizing.maxSteps = false := by
      rw [Bool.eq_false_iff, ne_eq, signed64_contains_natCast]
      omega
    refine ⟨?_, rfl⟩
    rw [print, all_fits, hinterval, hlarge]
    rfl

/-- Settings with a deposit beyond all bounds, and some number of steps. -/
def unbounded (steps : Nat) : Settings where
  sizing := { maxSteps := steps }
  seed := { quoteBalance := Decimal.infinity }

theorem validate_of_isOk {s : Settings} (h : s.validate.isOk = true) : s.validate = .ok () := by
  cases hv : s.validate with
  | ok => rfl
  | error flaw =>
    rw [hv] at h
    cases h

theorem print_parse_unbounded :
    (∃ text, print (unbounded 1) = .ok text ∧ parse text = .ok (unbounded 1)) ∧
      print (unbounded (2 ^ 63)) = .error .unwritable :=
  ⟨(print_parse (unbounded 1) (validate_of_isOk (by decide +kernel)) rfl rfl).1 (by decide),
    ((print_parse (unbounded (2 ^ 63)) (validate_of_isOk (by decide +kernel)) rfl rfl).2
      (by decide)).1⟩

end VirtualMarket.Settings
