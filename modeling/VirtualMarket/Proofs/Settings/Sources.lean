/-
VirtualMarket.Proofs.Settings.Sources — the tree of several sources, key by key.

Sources fill a tree of tables, each merged into what the ones before have left.
For one key of one section all that remains of this is a list: the values that the
sources give to the key, in their order, and the last of them counts.  It takes that
every source has the section as a table and the key as a scalar; what else a source
has makes no difference.
-/
import Mathlib.Data.List.Nodup
import VirtualMarket.Settings.Address

namespace VirtualMarket.Settings

/-! ## Entries -/

theorem entry?_putEntry (name other : String) (tree : Tree) (entries : List (String × Tree)) :
    entry? name (putEntry other tree entries) =
      if other = name then some tree else entry? name entries := by
  induction entries with
  | nil => simp [putEntry, entry?]
  | cons e rest ih =>
    obtain ⟨n, old⟩ := e
    unfold putEntry
    by_cases hn : n = other
    · subst hn
      simp only [if_pos, entry?]
      split <;> rfl
    · rw [if_neg hn]
      simp only [ih, entry?]
      by_cases ho : other = name
      · subst ho
        rw [if_neg hn]
        simp
      · rw [if_neg ho, if_neg ho]

/-- Of distinct names only one gives its value. -/
theorem flatMap_eq_lookup {α : Type} {l : List (String × α)} (h : (l.map Prod.fst).Nodup)
    (a : String) : (l.flatMap fun e => if e.1 = a then [e.2] else []) = (l.lookup a).toList := by
  induction l with
  | nil => rfl
  | cons e rest ih =>
    obtain ⟨hnot, hrest⟩ := List.nodup_cons.mp h
    rw [List.flatMap_cons, List.lookup_cons]
    by_cases he : e.1 = a
    · have hnone : (rest.flatMap fun e => if e.1 = a then [e.2] else []) = [] := by
        refine List.flatMap_eq_nil_iff.mpr fun e' he' => if_neg fun heq => hnot ?_
        exact he.trans heq.symm ▸ List.mem_map_of_mem he'
      rw [if_pos he, hnone, he, beq_self_eq_true]
      rfl
    · have hbeq : (a == e.1) = false := beq_false_of_ne (Ne.symm he)
      rw [if_neg he, List.nil_append, ih hrest, hbeq]

theorem getLast?_toList {α : Type} (o : Option α) : o.toList.getLast? = o := by
  cases o <;> rfl

theorem lookup_eq_some_iff_mem {α : Type} {l : List (String × α)} (h : (l.map Prod.fst).Nodup)
    {a : String} {v : α} : l.lookup a = some v ↔ (a, v) ∈ l := by
  induction l with
  | nil => simp
  | cons e rest ih =>
    obtain ⟨hnot, hrest⟩ := List.nodup_cons.mp h
    obtain ⟨b, w⟩ := e
    rw [List.lookup_cons, List.mem_cons, Prod.mk.injEq]
    by_cases hb : a = b
    · subst hb
      have habsent : (a, v) ∉ rest := fun hm => hnot (List.mem_map.mpr ⟨_, hm, rfl⟩)
      simp [habsent, eq_comm]
    · rw [beq_false_of_ne hb]
      simp [hb, ih hrest]

namespace Tree

variable {t c value : Tree} {name key sectionName : String} {entries : List (String × Tree)}

theorem child?_putChild (t : Tree) (name other : String) (child : Tree) :
    (t.putChild other child).child? name = if other = name then some child else t.child? name :=
  entry?_putEntry name other child t.entries

/-- A single value. -/
def Scalar : Tree → Prop
  | .boolean _ => True
  | .integer _ => True
  | .real _ => True
  | .text _ => True
  | _ => False

instance (t : Tree) : Decidable t.Scalar :=
  match t with
  | .boolean _ | .integer _ | .real _ | .text _ => isTrue trivial
  | .table _ | .list _ | .unset => isFalse id

def IsTable (t : Tree) : Prop :=
  ∃ entries, t = .table entries

instance (t : Tree) : Decidable t.IsTable :=
  match t with
  | .table entries => isTrue ⟨entries, rfl⟩
  | .boolean _ | .integer _ | .real _ | .text _ | .list _ | .unset => isFalse nofun

theorem isTable_putChild (t : Tree) (name : String) (child : Tree) : (t.putChild name child).IsTable :=
  ⟨_, rfl⟩

theorem set_of_scalar (h : value.Scalar) : t.set name value = t.putChild (lowerName name) value := by
  cases value with
  | table | list | unset => cases h
  | _ => rfl

/-- Setting a name makes one child of it. -/
theorem exists_set_eq (t : Tree) (name : String) (value : Tree) :
    ∃ child, t.set name value = t.putChild (lowerName name) child := by
  cases value <;> exact ⟨_, rfl⟩

theorem isTable_set (t : Tree) (name : String) (value : Tree) : (t.set name value).IsTable := by
  obtain ⟨child, h⟩ := exists_set_eq t name value
  exact h ▸ isTable_putChild t _ child

theorem child?_set_of_ne (h : lowerName name ≠ key) :
    (t.set name value).child? key = t.child? key := by
  obtain ⟨child, hset⟩ := exists_set_eq t name value
  rw [hset, child?_putChild, if_neg h]

/-! ## Tables -/

/-- The values that the entries of a table give to a key, in their order. -/
def valuesOf (key : String) (entries : List (String × Tree)) : List Tree :=
  entries.filterMap fun (name, value) => if lowerName name = key then some value else none

@[simp] theorem valuesOf_cons (key : String) (e : String × Tree) (rest : List (String × Tree)) :
    valuesOf key (e :: rest) =
      if lowerName e.1 = key then e.2 :: valuesOf key rest else valuesOf key rest := by
  unfold valuesOf
  rw [List.filterMap_cons]
  split <;> split <;> simp_all

theorem isTable_setAll (h : t.IsTable) : (t.setAll entries).IsTable := by
  induction entries generalizing t with
  | nil => exact h
  | cons e rest ih => exact ih (isTable_set t e.1 e.2)

theorem valuesOf_eq_flatMap (key : String) (entries : List (String × Tree)) :
    valuesOf key entries = entries.flatMap fun e => if lowerName e.1 = key then [e.2] else [] := by
  induction entries with
  | nil => rfl
  | cons e rest ih =>
    rw [valuesOf_cons, List.flatMap_cons, ih]
    split <;> rfl

/-- Of the scalars that entries give to a key the last one stays. -/
theorem child?_setAll (h : ∀ e ∈ entries, lowerName e.1 = key → e.2.Scalar) :
    (t.setAll entries).child? key = (valuesOf key entries).getLast?.or (t.child? key) := by
  induction entries generalizing t with
  | nil => rfl
  | cons e rest ih =>
    change ((t.set e.1 e.2).setAll rest).child? key = _
    rw [ih fun e he => h e (List.mem_cons_of_mem _ he), valuesOf_cons]
    by_cases hname : lowerName e.1 = key
    · rw [set_of_scalar (h e List.mem_cons_self hname), child?_putChild, if_pos hname,
        if_pos hname, List.getLast?_cons]
      cases (valuesOf key rest).getLast? <;> rfl
    · rw [child?_set_of_ne hname, if_neg hname]

/-! ## Addresses -/

/-- The values that an outermost name gives to a key of a section: those of the table
of the section, or the one whose address it is. -/
def assigned (sectionName key : String) : List Step → Tree → List Tree
  | [.entry name], value =>
    if lowerName name = sectionName then valuesOf key value.entries else []
  | [.entry name, .entry inner], value =>
    if lowerName name = sectionName ∧ lowerName inner = key then [value] else []
  | _, _ => []

/-- What an address sets leaves a section a table and its keys scalars.  Addresses
start with a name. -/
def Plain (sectionName : String) (keys : List String) : List Step → Tree → Prop
  | [.entry name], value =>
    lowerName name = sectionName → value.IsTable ∧
      ∀ e ∈ value.entries, lowerName e.1 ∈ keys → e.2.Scalar
  | .entry name :: .entry inner :: rest, value =>
    lowerName name = sectionName → lowerName inner ∈ keys → rest = [] ∧ value.Scalar
  | .entry name :: .place _ :: _, _ => lowerName name ≠ sectionName
  | _, _ => False

instance (sectionName : String) (keys : List String) (steps : List Step) (value : Tree) :
    Decidable (Plain sectionName keys steps value) :=
  match steps with
  | [.entry name] => inferInstanceAs (Decidable (lowerName name = sectionName → value.IsTable ∧
      ∀ e ∈ value.entries, lowerName e.1 ∈ keys → e.2.Scalar))
  | .entry name :: .entry inner :: rest => inferInstanceAs (Decidable
      (lowerName name = sectionName → lowerName inner ∈ keys → rest = [] ∧ value.Scalar))
  | .entry name :: .place _ :: _ => inferInstanceAs (Decidable (lowerName name ≠ sectionName))
  | [] | .place _ :: _ => isFalse id

/-- The section is a table where it is there. -/
def HasSection (t : Tree) (sectionName : String) : Prop :=
  ∀ c, t.child? sectionName = some c → c.IsTable

/-- The value of a key of a section. -/
def valueAt (t : Tree) (sectionName key : String) : Option Tree :=
  (t.child? sectionName).bind (·.child? key)

theorem hasSection_putChild {child : Tree} (ht : t.HasSection sectionName)
    (h : name = sectionName → child.IsTable) : (t.putChild name child).HasSection sectionName := by
  intro c hc
  rw [child?_putChild] at hc
  split at hc
  · rename_i hname
    cases hc
    exact h hname
  · exact ht c hc

theorem valueAt_putChild (t : Tree) (name sectionName key : String) (child : Tree) :
    (t.putChild name child).valueAt sectionName key =
      if name = sectionName then child.child? key else t.valueAt sectionName key := by
  rw [valueAt, child?_putChild]
  split <;> rfl

/-- What is below a name that may be missing. -/
theorem child?_getD_unset (t : Tree) (sectionName key : String) :
    ((t.child? sectionName).getD .unset).child? key = t.valueAt sectionName key := by
  unfold valueAt
  cases t.child? sectionName <;> rfl

theorem assigned_inner (sectionName key name inner : String) (rest : List Step) (value : Tree) :
    assigned sectionName key (.entry name :: .entry inner :: rest) value =
      if lowerName name = sectionName ∧ lowerName inner = key ∧ rest = [] then [value] else [] := by
  cases rest <;> simp [assigned]

/-- Setting what an address names inside of a section. -/
theorem setAt_inner {inner : String} {rest : List Step} (c : Tree)
    (h : lowerName inner = key → rest = [] ∧ value.Scalar) :
    (setAt value (.entry inner :: rest) c).IsTable ∧
      (setAt value (.entry inner :: rest) c).child? key =
        if lowerName inner = key ∧ rest = [] then some value else c.child? key := by
  cases rest with
  | nil =>
    refine ⟨isTable_set c inner value, ?_⟩
    change (c.set inner value).child? key = _
    by_cases hk : lowerName inner = key
    · rw [set_of_scalar (h hk).2, child?_putChild, if_pos hk, if_pos ⟨hk, rfl⟩]
    · rw [child?_set_of_ne hk, if_neg fun h => hk h.1]
  | cons step rest =>
    have hk : lowerName inner ≠ key := fun hk => by simpa using (h hk).1
    have hset : setAt value (.entry inner :: step :: rest) c = c.putChild (lowerName inner)
        (setAt value (step :: rest) ((c.child? (lowerName inner)).getD .unset)) := rfl
    rw [hset, child?_putChild, if_neg hk, if_neg fun h => hk h.1]
    exact ⟨isTable_putChild _ _ _, rfl⟩

/-- One outermost name of a source: the section stays a table, and of the values that
the name gives to a key the last one counts. -/
theorem setAt_plain {keys : List String} {steps : List Step}
    (hp : Plain sectionName keys steps value) (hk : key ∈ keys) (ht : t.HasSection sectionName) :
    (setAt value steps t).HasSection sectionName ∧
      (setAt value steps t).valueAt sectionName key =
        (assigned sectionName key steps value).getLast?.or (t.valueAt sectionName key) := by
  match steps with
  | [] => cases hp
  | .place _ :: _ => cases hp
  | [.entry name] =>
    obtain ⟨child, hset⟩ := exists_set_eq t name value
    by_cases hname : lowerName name = sectionName
    · -- the section itself: its entries are set one after another
      obtain ⟨⟨entries, rfl⟩, hscalar⟩ := hp hname
      replace hscalar : ∀ e ∈ entries, lowerName e.1 ∈ keys → e.2.Scalar := hscalar
      have htable : ((t.child? sectionName).getD (.table [])).IsTable := by
        cases hc : t.child? sectionName with
        | none => exact ⟨[], rfl⟩
        | some c => exact ht c hc
      have hbelow : ((t.child? sectionName).getD (.table [])).child? key
          = t.valueAt sectionName key := by
        unfold valueAt
        cases t.child? sectionName <;> rfl
      change HasSection (t.putChild (lowerName name) _) _ ∧ valueAt (t.putChild _ _) _ _ = _
      rw [valueAt_putChild, if_pos hname, hname]
      refine ⟨hasSection_putChild ht fun _ => isTable_setAll htable, ?_⟩
      rw [child?_setAll fun e he hkey => hscalar e he (hkey ▸ hk), hbelow, assigned, if_pos hname]
      rfl
    · change HasSection (t.set name value) _ ∧ valueAt (t.set name value) _ _ = _
      rw [hset, valueAt_putChild, if_neg hname, assigned, if_neg hname]
      exact ⟨hasSection_putChild ht fun h => absurd h hname, rfl⟩
  | .entry name :: .place index :: rest =>
    have hname : lowerName name ≠ sectionName := hp
    rw [setAt, valueAt_putChild, if_neg hname]
    · exact ⟨hasSection_putChild ht fun h => absurd h hname, rfl⟩
    · nofun
  | .entry name :: .entry inner :: rest =>
    have hset : setAt value (.entry name :: .entry inner :: rest) t =
        t.putChild (lowerName name)
          (setAt value (.entry inner :: rest) ((t.child? (lowerName name)).getD .unset)) := rfl
    rw [hset, valueAt_putChild, assigned_inner]
    by_cases hname : lowerName name = sectionName
    · obtain ⟨htable, hchild⟩ := setAt_inner ((t.child? (lowerName name)).getD .unset)
        fun h => hp hname (h ▸ hk)
      refine ⟨hasSection_putChild ht fun _ => htable, ?_⟩
      rw [if_pos hname, hchild, hname, child?_getD_unset]
      simp only [true_and]
      split <;> rfl
    · rw [if_neg hname, if_neg fun h => hname h.1]
      exact ⟨hasSection_putChild ht fun h => absurd h hname, rfl⟩

/-! ## Sources -/

/-- The outermost names of a source leave all sections tables and their keys scalars. -/
def PlainSource (fieldNames : List (String × List String)) (source : List (String × Tree)) : Prop :=
  ∀ e ∈ source, ∀ names ∈ fieldNames, Plain names.1 names.2 (Address.read e.1) e.2

instance (fieldNames : List (String × List String)) (source : List (String × Tree)) :
    Decidable (PlainSource fieldNames source) :=
  inferInstanceAs (Decidable (∀ e ∈ source, ∀ names ∈ fieldNames, _))

/-- The values that a source gives to a key of a section, in their order. -/
def assignments (sectionName key : String) (source : List (String × Tree)) : List Tree :=
  source.flatMap fun (name, value) => assigned sectionName key (Address.read name) value

/-- No key of a section is given two values by a source, be it under names that differ
in case only, or in a table and at an address. -/
def SingleValued (fieldNames : List (String × List String)) (source : List (String × Tree)) :
    Prop :=
  ∀ names ∈ fieldNames, ∀ key ∈ names.2, (assignments names.1 key source).length ≤ 1

instance (fieldNames : List (String × List String)) (source : List (String × Tree)) :
    Decidable (SingleValued fieldNames source) :=
  inferInstanceAs (Decidable (∀ names ∈ fieldNames, _))

variable {source : List (String × Tree)} {keys : List String}

/-- Where a source gives values to a key, the last of them takes the place of the value
of the sources before. -/
theorem addSource_plain (hp : ∀ e ∈ source, Plain sectionName keys (Address.read e.1) e.2)
    (hk : key ∈ keys) (ht : t.HasSection sectionName) :
    (t.addSource source).HasSection sectionName ∧
      (t.addSource source).valueAt sectionName key =
        (assignments sectionName key source).getLast?.or (t.valueAt sectionName key) := by
  induction source generalizing t with
  | nil => exact ⟨ht, rfl⟩
  | cons e rest ih =>
    obtain ⟨hsection, hvalue⟩ := setAt_plain (hp e List.mem_cons_self) hk ht
    obtain ⟨hall, hlast⟩ := ih (fun e he => hp e (List.mem_cons_of_mem _ he)) hsection
    refine ⟨hall, ?_⟩
    rw [assignments, List.flatMap_cons, List.getLast?_append, Option.or_assoc, ← hvalue]
    exact hlast

/-- The tree of plain sources has for every key the last value that any of them gives. -/
theorem ofSources_plain {sources : List (List (String × Tree))}
    (hp : ∀ source ∈ sources, ∀ e ∈ source, Plain sectionName keys (Address.read e.1) e.2)
    (hk : key ∈ keys) :
    (ofSources sources).HasSection sectionName ∧
      (ofSources sources).valueAt sectionName key =
        (sources.flatMap (assignments sectionName key)).getLast? := by
  have run (sources : List (List (String × Tree))) (t : Tree)
      (hp : ∀ source ∈ sources, ∀ e ∈ source, Plain sectionName keys (Address.read e.1) e.2)
      (ht : t.HasSection sectionName) :
      (sources.foldl addSource t).HasSection sectionName ∧
        (sources.foldl addSource t).valueAt sectionName key =
          (sources.flatMap (assignments sectionName key)).getLast?.or
            (t.valueAt sectionName key) := by
    induction sources generalizing t with
    | nil => exact ⟨ht, rfl⟩
    | cons source rest ih =>
      obtain ⟨hsection, hvalue⟩ := addSource_plain (hp source List.mem_cons_self) hk ht
      obtain ⟨hall, hlast⟩ := ih (t.addSource source)
        (fun source hs => hp source (List.mem_cons_of_mem _ hs)) hsection
      refine ⟨hall, ?_⟩
      rw [List.flatMap_cons, List.getLast?_append, Option.or_assoc, ← hvalue]
      exact hlast
  obtain ⟨hsection, hvalue⟩ := run sources (.table []) hp nofun
  exact ⟨hsection, hvalue.trans (Option.or_none ..)⟩

end Tree

end VirtualMarket.Settings
