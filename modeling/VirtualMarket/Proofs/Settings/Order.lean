/-
VirtualMarket.Proofs.Settings.Order — the names of a source in another order.

A file has its names in an order, but a table does not: whoever holds the names of a
file in a map loses the order in which they were written.  Where no key is given two
values this makes no difference.  Another order, at whatever depth, leaves what is plain
plain, and gives to every key the values that it had, up to their order.
-/
import VirtualMarket.Proofs.Settings.Sources

namespace VirtualMarket.Settings.Tree

variable {t t' : Tree} {sectionName key : String} {keys : List String}

/-- The same tree, with the entries of its tables in another order. -/
inductive Reorders : Tree → Tree → Prop
  | refl (t : Tree) : Reorders t t
  | trans {t u v : Tree} : Reorders t u → Reorders u v → Reorders t v
  | perm {entries entries' : List (String × Tree)} (h : entries.Perm entries') :
      Reorders (.table entries) (.table entries')
  | entry {first rest : List (String × Tree)} {name : String} {t t' : Tree} (h : Reorders t t') :
      Reorders (.table (first ++ (name, t) :: rest)) (.table (first ++ (name, t') :: rest))
  | item {first rest : List Tree} {t t' : Tree} (h : Reorders t t') :
      Reorders (.list (first ++ t :: rest)) (.list (first ++ t' :: rest))

namespace Reorders

theorem eq_of_scalar (h : Reorders t t') (hs : t.Scalar) : t' = t := by
  induction h with
  | refl => rfl
  | trans _ _ ih ih' =>
    obtain rfl := ih hs
    exact ih' hs
  | perm | entry | item => cases hs

theorem isTable (h : Reorders t t') (ht : t.IsTable) : t'.IsTable := by
  induction h with
  | refl => exact ht
  | trans _ _ ih ih' => exact ih' (ih ht)
  | perm | entry => exact ⟨_, rfl⟩
  | item =>
    obtain ⟨entries, he⟩ := ht
    cases he

/-- What holds of the entries of a table, and what they contribute to a list, does not
depend on their order if that is so for each of them. -/
theorem entries {P : String → Tree → Prop} {f : String → Tree → List Tree}
    (step : ∀ name t t', Reorders t t' → P name t → P name t' ∧ (f name t').Perm (f name t))
    (h : Reorders t t') (hp : ∀ e ∈ t.entries, P e.1 e.2) :
    (∀ e ∈ t'.entries, P e.1 e.2) ∧
      (t'.entries.flatMap fun e => f e.1 e.2).Perm (t.entries.flatMap fun e => f e.1 e.2) := by
  induction h with
  | refl => exact ⟨hp, .refl _⟩
  | trans _ _ ih ih' =>
    obtain ⟨hu, hfirst⟩ := ih hp
    obtain ⟨hv, hsecond⟩ := ih' hu
    exact ⟨hv, hsecond.trans hfirst⟩
  | perm h => exact ⟨fun e he => hp e (h.mem_iff.mpr he), (h.flatMap_right _).symm⟩
  | @entry first rest name t t' h =>
    simp only [Tree.entries, List.forall_mem_append, List.forall_mem_cons] at hp ⊢
    obtain ⟨hfirst, hname, hrest⟩ := hp
    obtain ⟨hname', hperm⟩ := step name t t' h hname
    refine ⟨⟨hfirst, hname', hrest⟩, ?_⟩
    rw [List.flatMap_append, List.flatMap_append, List.flatMap_cons, List.flatMap_cons]
    exact (hperm.append_right _).append_left _
  | item => exact ⟨nofun, .refl _⟩

/-- Keys that have scalars keep them. -/
theorem values (h : Reorders t t') (hs : ∀ e ∈ t.entries, lowerName e.1 ∈ keys → e.2.Scalar)
    (hk : key ∈ keys) :
    (∀ e ∈ t'.entries, lowerName e.1 ∈ keys → e.2.Scalar) ∧
      (valuesOf key t'.entries).Perm (valuesOf key t.entries) := by
  rw [valuesOf_eq_flatMap, valuesOf_eq_flatMap]
  refine h.entries (P := fun name value => lowerName name ∈ keys → value.Scalar)
    (f := fun name value => if lowerName name = key then [value] else []) (fun name t t' h hs => ?_) hs
  by_cases hname : lowerName name ∈ keys
  · obtain rfl := h.eq_of_scalar (hs hname)
    exact ⟨hs, .refl _⟩
  · have hne : lowerName name ≠ key := fun he => hname (he ▸ hk)
    rw [if_neg hne, if_neg hne]
    exact ⟨fun h => absurd h hname, .refl _⟩

/-- An address assigns the same values, whatever the order inside of what it sets. -/
theorem assigned (h : Reorders t t') {steps : List Step} (hp : Plain sectionName keys steps t)
    (hk : key ∈ keys) :
    Plain sectionName keys steps t' ∧
      (assigned sectionName key steps t').Perm (assigned sectionName key steps t) := by
  match steps with
  | [] => cases hp
  | .place _ :: _ => cases hp
  | [.entry name] =>
    by_cases hname : lowerName name = sectionName
    · obtain ⟨htable, hscalar⟩ := hp hname
      obtain ⟨hscalar', hperm⟩ := h.values hscalar hk
      rw [Tree.assigned, Tree.assigned, if_pos hname, if_pos hname]
      exact ⟨fun _ => ⟨h.isTable htable, hscalar'⟩, hperm⟩
    · rw [Tree.assigned, Tree.assigned, if_neg hname, if_neg hname]
      exact ⟨fun h => absurd h hname, .refl _⟩
  | .entry name :: .place index :: rest => exact ⟨hp, .refl _⟩
  | .entry name :: .entry inner :: rest =>
    rw [assigned_inner, assigned_inner]
    by_cases hname : lowerName name = sectionName ∧ lowerName inner ∈ keys
    · obtain rfl := h.eq_of_scalar (hp hname.1 hname.2).2
      exact ⟨hp, .refl _⟩
    · have hne : ¬ (lowerName name = sectionName ∧ lowerName inner = key ∧ rest = []) :=
        fun hall => hname ⟨hall.1, hall.2.1 ▸ hk⟩
      rw [if_neg hne, if_neg hne]
      exact ⟨fun h h' => absurd ⟨h, h'⟩ hname, .refl _⟩

/-- A plain source assigns the same values in any order of its names. -/
theorem assignments {source source' : List (String × Tree)}
    (h : Reorders (.table source) (.table source'))
    (hp : ∀ e ∈ source, Plain sectionName keys (Address.read e.1) e.2) (hk : key ∈ keys) :
    (∀ e ∈ source', Plain sectionName keys (Address.read e.1) e.2) ∧
      (assignments sectionName key source').Perm (assignments sectionName key source) :=
  h.entries (P := fun name t => Plain sectionName keys (Address.read name) t)
    (f := fun name t => Tree.assigned sectionName key (Address.read name) t)
    (fun _ _ _ h hp => h.assigned hp hk) hp

end Reorders

variable {fieldNames : List (String × List String)} {source source' : List (String × Tree)}

/-- In another order a plain source of single values is the same for every key of the
sections. -/
theorem Reorders.singleValued (h : Reorders (.table source) (.table source'))
    (hp : PlainSource fieldNames source) (hs : SingleValued fieldNames source) :
    SingleValued fieldNames source' ∧ ∀ names ∈ fieldNames, ∀ key ∈ names.2,
      Tree.assignments names.1 key source' = Tree.assignments names.1 key source := by
  have hsame : ∀ names ∈ fieldNames, ∀ key ∈ names.2,
      Tree.assignments names.1 key source' = Tree.assignments names.1 key source := by
    intro names hnames key hkey
    have hperm := (h.assignments (fun e he => hp e he names hnames) hkey).2
    match hvalues : Tree.assignments names.1 key source, hs names hnames key hkey with
    | [], _ => exact (hvalues ▸ hperm).eq_nil
    | [value], _ => exact List.perm_singleton.mp (hvalues ▸ hperm)
  refine ⟨fun names hnames key hkey => ?_, hsame⟩
  rw [hsame names hnames key hkey]
  exact hs names hnames key hkey

theorem Reorders.plainSource (h : Reorders (.table source) (.table source'))
    (hp : PlainSource fieldNames source) (hk : ∀ names ∈ fieldNames, ∃ key, key ∈ names.2) :
    PlainSource fieldNames source' := by
  intro e he names hnames
  obtain ⟨key, hkey⟩ := hk names hnames
  exact (h.assignments (fun e he => hp e he names hnames) hkey).1 e he

end VirtualMarket.Settings.Tree
