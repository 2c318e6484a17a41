/-
VirtualMarket.Proofs.Toml.Document — documents of plain tables.

A document of tables, each with a header of its own and values under bare names, is
what its statements say: every header opens a table at the end, and every definition
adds to the table at the end.
-/
import Mathlib.Data.List.Nodup
import VirtualMarket.Proofs.Toml.Lines

namespace VirtualMarket.Toml

/-! ## Entries -/

namespace Entries

variable {entries : Entries} {key : String} {item old : Item}

theorem get?_append (h : key ∉ entries.map Prod.fst) (more : Entries) :
    get? (entries ++ more) key = get? more key := by
  induction entries with
  | nil => rfl
  | cons e rest ih =>
    rw [List.map_cons, List.mem_cons, not_or] at h
    rw [List.cons_append, get?, if_neg (Ne.symm h.1), ih h.2]

theorem put_append (h : key ∉ entries.map Prod.fst) (more : Entries) (item : Item) :
    put (entries ++ more) key item = entries ++ put more key item := by
  induction entries with
  | nil => rfl
  | cons e rest ih =>
    rw [List.map_cons, List.mem_cons, not_or] at h
    rw [List.cons_append, put, if_neg (Ne.symm h.1), ih h.2, List.cons_append]

theorem get?_of_not_mem (h : key ∉ entries.map Prod.fst) : entries.get? key = none :=
  List.append_nil entries ▸ get?_append h []

theorem put_of_not_mem (h : key ∉ entries.map Prod.fst) :
    entries.put key item = entries ++ [(key, item)] := by
  have hput := put_append h [] item
  rwa [List.append_nil] at hput

theorem get?_last (h : key ∉ entries.map Prod.fst) :
    get? (entries ++ [(key, item)]) key = some item := by
  rw [get?_append h, get?, if_pos rfl]

theorem put_last (h : key ∉ entries.map Prod.fst) :
    put (entries ++ [(key, old)]) key item = entries ++ [(key, item)] := by
  rw [put_append h, put, if_pos rfl]

end Entries

/-! ## Tables -/

/-- The entries of some tables with headers. -/
def tableEntries (tables : List (String × Entries)) : Entries :=
  tables.map fun t => (t.1, .table .header t.2)

/-- The header of a table and the definitions of its entries. -/
def tableStatements (table : String × Entries) : List Statement :=
  .header [table.1] :: table.2.map fun e => .define [e.1] e.2

namespace Document

variable {entries : Entries} {name key : String} {item : Item}

/-- A header with a new name opens an empty table at the end. -/
theorem take?_header (current : List String) (h : name ∉ entries.map Prod.fst) :
    take? ⟨entries, current⟩ (.header [name]) =
      some ⟨entries ++ [(name, .table .header [])], [name]⟩ := by
  have hopen : Entries.openTable name entries = some (entries ++ [(name, .table .header [])]) := by
    rw [Entries.openTable, Entries.get?_of_not_mem h]
    simp only [Entries.put_of_not_mem h]
  simp [take?, Entries.alterUnder, Entries.alterAt, hopen]

/-- A definition with a new name goes to the end of the open table. -/
theorem take?_define {inner : Entries} (h : name ∉ entries.map Prod.fst)
    (hkey : key ∉ inner.map Prod.fst) :
    take? ⟨entries ++ [(name, .table .header inner)], [name]⟩ (.define [key] item) =
      some ⟨entries ++ [(name, .table .header (inner ++ [(key, item)]))], [name]⟩ := by
  have hadd : defineKey [key] item inner = some (inner ++ [(key, item)]) := by
    simp [defineKey, Entries.define, Entries.alterAt, Entries.add?, Entries.get?_of_not_mem hkey,
      Entries.put_of_not_mem hkey]
  simp [take?, Entries.alterUnder, Entries.alterAt, Entries.get?_last h, Entries.put_last h, hadd]

/-- Definitions with new names fill the open table. -/
theorem foldlM_define (inner : Entries) {fields : Entries} (h : name ∉ entries.map Prod.fst)
    (hfields : ((inner ++ fields).map Prod.fst).Nodup) :
    (fields.map fun e => Statement.define [e.1] e.2).foldlM take?
        ⟨entries ++ [(name, .table .header inner)], [name]⟩ =
      some ⟨entries ++ [(name, .table .header (inner ++ fields))], [name]⟩ := by
  induction fields generalizing inner with
  | nil => simp
  | cons e rest ih =>
    have hkey : e.1 ∉ inner.map Prod.fst := by
      rw [List.map_append, List.map_cons] at hfields
      exact fun hmem => List.disjoint_of_nodup_append hfields hmem List.mem_cons_self
    have hsplit : inner ++ e :: rest = inner ++ [(e.1, e.2)] ++ rest := by simp
    rw [hsplit] at hfields ⊢
    rw [List.map_cons, List.foldlM_cons, take?_define h hkey]
    exact ih _ hfields

/-- Tables with new names come to stand at the end, one after another. -/
theorem foldlM_tables (current : List String) (done : List (String × Entries))
    {tables : List (String × Entries)}
    (hnames : ((done ++ tables).map Prod.fst).Nodup)
    (hfields : ∀ t ∈ tables, (t.2.map Prod.fst).Nodup) :
    ∃ last, (tables.flatMap tableStatements).foldlM take? ⟨tableEntries done, current⟩ =
      some ⟨tableEntries (done ++ tables), last⟩ := by
  induction tables generalizing done current with
  | nil => exact ⟨current, by simp⟩
  | cons t rest ih =>
    have hname : t.1 ∉ (tableEntries done).map Prod.fst := by
      rw [List.map_append, List.map_cons] at hnames
      intro hmem
      rw [tableEntries, List.map_map] at hmem
      exact List.disjoint_of_nodup_append hnames hmem List.mem_cons_self
    have hsplit : done ++ t :: rest = done ++ [t] ++ rest := by simp
    have hdone : tableEntries done ++ [(t.1, .table .header t.2)] = tableEntries (done ++ [t]) := by
      simp [tableEntries]
    have hfill := foldlM_define [] hname (by simpa using hfields t List.mem_cons_self)
    rw [List.nil_append, hdone] at hfill
    obtain ⟨last, hlast⟩ := ih [t.1] (done ++ [t]) (hsplit ▸ hnames)
      fun t ht => hfields t (List.mem_cons_of_mem _ ht)
    refine ⟨last, ?_⟩
    rw [List.flatMap_cons, tableStatements, List.cons_append, List.foldlM_cons, take?_header _ hname]
    change List.foldlM take? _ (_ ++ _) = _
    rw [List.foldlM_append, hfill, hsplit]
    exact hlast

end Document

/-! ## Settled items -/

theorem settleEntries?_eq {entries : Entries} (h : ∀ e ∈ entries, e.2.settle? = some e.2) :
    settleEntries? entries = some entries := by
  induction entries with
  | nil => rfl
  | cons e rest ih =>
    rw [settleEntries?, h e List.mem_cons_self, ih fun e he => h e (List.mem_cons_of_mem _ he)]
    rfl

/-- A bare name marks no date. -/
theorem Bare.ne_momentMark {name : String} (h : Bare name) : name ≠ momentMark := by
  rintro rfl
  have hdollar := h.all '$' (by decide)
  revert hdollar
  decide

theorem settleTable?_eq {entries : Entries} (origin : Origin)
    (hnames : ∀ e ∈ entries, Bare e.1) (h : ∀ e ∈ entries, e.2.settle? = some e.2) :
    settleTable? origin entries = some (.table origin entries) := by
  cases entries with
  | nil => rfl
  | cons e rest =>
    rw [settleTable?, if_neg (hnames e List.mem_cons_self).ne_momentMark, h e List.mem_cons_self,
      settleEntries?_eq fun e he => h e (List.mem_cons_of_mem _ he)]
    rfl

/-! ## Texts -/

/-- Tables with bare names, no two the same, and with values that are no dates. -/
structure Tables (tables : List (String × Entries)) : Prop where
  names : ∀ t ∈ tables, Bare t.1
  keys : ∀ t ∈ tables, ∀ e ∈ t.2, Bare e.1
  distinct : (tables.map Prod.fst).Nodup
  distinctKeys : ∀ t ∈ tables, (t.2.map Prod.fst).Nodup
  settled : ∀ t ∈ tables, ∀ e ∈ t.2, e.2.settle? = some e.2

variable {tables : List (String × Entries)}

theorem Tables.settle?_eq (h : Tables tables) :
    Entries.settle? (tableEntries tables) = some (tableEntries tables) := by
  have htables : settleTable? .header (tableEntries tables) =
      some (.table .header (tableEntries tables)) := by
    refine settleTable?_eq .header ?_ ?_
    · rintro e he
      obtain ⟨t, ht, rfl⟩ := List.mem_map.mp he
      exact h.names t ht
    · rintro e he
      obtain ⟨t, ht, rfl⟩ := List.mem_map.mp he
      rw [Item.settle?]
      exact settleTable?_eq .header (h.keys t ht) (h.settled t ht)
  rw [Entries.settle?, htables]
  rfl

/-- A text whose lines are the statements of tables is a document of these tables. -/
theorem Tables.parse?_eq (h : Tables tables) {text : String}
    (hmark : skipByteOrderMark text.toList = text.toList)
    (hreads : Reads text.toList (tables.flatMap tableStatements)) :
    parse? text = some (tableEntries tables) := by
  obtain ⟨last, hlast⟩ := Document.foldlM_tables [] [] h.distinct h.distinctKeys
  have hdocument : Document.ofStatements? (tables.flatMap tableStatements) =
      some ⟨tableEntries tables, last⟩ := hlast
  have hstatements := hreads (text.toList.length + 1) (Nat.lt_succ_self _)
  simp only [parse?, hmark, hstatements, hdocument, Option.bind_eq_bind, Option.bind_some]
  exact h.settle?_eq

end VirtualMarket.Toml
