/-
VirtualMarket.Proofs.Settings.Layers — layered settings, key by key.

A section asks the tree for its own keys and for nothing else.  With plain sources it
gets for each key the value of the strongest source that has one, so loading layers is
looking every key up by itself: in the variables, then in the overlay, then in the
base file.
-/
import VirtualMarket.Proofs.Settings.Environment
import VirtualMarket.Proofs.Settings.Order
import VirtualMarket.Settings.Load

namespace VirtualMarket.Settings

/-! ## Sections -/

/-- The settings that sections read, each from its own fields. -/
def ofFields? (fields : String → Fields) : Option Settings := do
  some {
    curve := ← curveSection.read (fields curveSection.name)
    tracking := ← trackingSection.read (fields trackingSection.name)
    sizing := ← sizingSection.read (fields sizingSection.name)
    plan := ← planSection.read (fields planSection.name)
    seed := ← seedSection.read (fields seedSection.name) }

/-- The settings that sections read, tested. -/
def ofFields (fields : String → Fields) : Except SettingsFlaw Settings :=
  match ofFields? fields with
  | none => .error .unreadable
  | some s => do
    s.validate
    .ok s

/-- A section reads its own fields only. -/
def Section.Local {α : Type} (s : Section α) : Prop :=
  ∀ f g : Fields, (∀ key ∈ s.fieldNames, f key = g key) → s.read f = s.read g

section

variable {f g : Fields} {key : String}

theorem Fields.real?_congr (h : f key = g key) (default : Float) :
    f.real? key default = g.real? key default := by
  rw [real?, real?, h]

theorem Fields.integer?_congr (h : f key = g key) (default : Int) :
    f.integer? key default = g.integer? key default := by
  rw [integer?, integer?, h]

theorem Fields.natural?_congr (h : f key = g key) (default : Nat) :
    f.natural? key default = g.natural? key default := by
  rw [natural?, natural?, h]

theorem Fields.boolean?_congr (h : f key = g key) (default : Bool) :
    f.boolean? key default = g.boolean? key default := by
  rw [boolean?, boolean?, h]

end

theorem local_curveSection : curveSection.Local := by
  intro f g h
  simp only [curveSection, List.forall_mem_cons] at h ⊢
  obtain ⟨ha, hg, hf, -⟩ := h
  rw [Fields.real?_congr ha, Fields.real?_congr hg, Fields.real?_congr hf]

theorem local_trackingSection : trackingSection.Local := by
  intro f g h
  simp only [trackingSection, List.forall_mem_cons] at h ⊢
  obtain ⟨hh, hm, hp, ht, -⟩ := h
  rw [Fields.real?_congr hh, Fields.real?_congr hm, Fields.real?_congr hp,
    Fields.integer?_congr ht]

theorem local_sizingSection : sizingSection.Local := by
  intro f g h
  simp only [sizingSection, List.forall_mem_cons] at h ⊢
  obtain ⟨hl, hm, ht, -⟩ := h
  rw [Fields.real?_congr hl, Fields.natural?_congr hm, Fields.real?_congr ht]

theorem local_planSection : planSection.Local := by
  intro f g h
  simp only [planSection, List.forall_mem_cons] at h ⊢
  obtain ⟨hc, hm, hd, hb, -⟩ := h
  rw [Fields.boolean?_congr hc, Fields.real?_congr hm, Fields.real?_congr hd,
    Fields.real?_congr hb]

theorem local_seedSection : seedSection.Local := by
  intro f g h
  simp only [seedSection, List.forall_mem_cons] at h ⊢
  obtain ⟨hq, hb, hp, ht, -⟩ := h
  rw [Fields.real?_congr hq, Fields.real?_congr hb, Fields.real?_congr hp,
    Fields.integer?_congr ht]

/-- A section that is a table where it is there is read by the values of its keys. -/
theorem Section.ofTree?_eq {α : Type} {s : Section α} {t : Tree} (ht : t.HasSection s.name) :
    s.ofTree? t = s.read fun key => t.valueAt s.name key := by
  unfold Section.ofTree?
  cases hc : t.child? s.name with
  | none =>
    have hv : (fun key => t.valueAt s.name key) = fun _ => none := by
      funext key
      rw [Tree.valueAt, hc]
      rfl
    rw [hv]
  | some c =>
    obtain ⟨entries, rfl⟩ := ht c hc
    have hv : (fun key => t.valueAt s.name key) = fun key => entry? key entries := by
      funext key
      rw [Tree.valueAt, hc]
      rfl
    rw [hv]
    rfl

theorem Section.ofTree?_eq_read {α : Type} {s : Section α} (hs : s.Local) {t : Tree}
    {fields : String → Fields} (ht : t.HasSection s.name)
    (hv : ∀ key ∈ s.fieldNames, t.valueAt s.name key = fields s.name key) :
    s.ofTree? t = s.read (fields s.name) :=
  (Section.ofTree?_eq ht).trans (hs _ _ hv)

/-- A tree with tables for sections is read by the values of the keys of the
sections. -/
theorem ofTree_eq {t : Tree} {fields : String → Fields}
    (h : ∀ names ∈ fieldNames, t.HasSection names.1 ∧
      ∀ key ∈ names.2, t.valueAt names.1 key = fields names.1 key) :
    Settings.ofTree t = ofFields fields := by
  simp only [fieldNames, List.forall_mem_cons] at h
  obtain ⟨⟨hc, hcurve⟩, ⟨ht, htracking⟩, ⟨hz, hsizing⟩, ⟨hp, hplan⟩, ⟨hs, hseed⟩, -⟩ := h
  have hof : ofTree? t = ofFields? fields := by
    unfold ofTree? ofFields?
    rw [Section.ofTree?_eq_read local_curveSection hc hcurve,
      Section.ofTree?_eq_read local_trackingSection ht htracking,
      Section.ofTree?_eq_read local_sizingSection hz hsizing,
      Section.ofTree?_eq_read local_planSection hp hplan,
      Section.ofTree?_eq_read local_seedSection hs hseed]
  rw [Settings.ofTree, hof]
  rfl

theorem exists_field : ∀ names ∈ fieldNames, ∃ key, key ∈ names.2 := by
  have hfields : ∀ names ∈ fieldNames, names.2 ≠ [] := by decide
  exact fun names h => List.exists_mem_of_ne_nil _ (hfields names h)

/-- Plain sources are read by the last values that they give to the keys of the
sections. -/
theorem ofTree_ofSources {sources : List (List (String × Tree))} {fields : String → Fields}
    (hp : ∀ source ∈ sources, Tree.PlainSource fieldNames source)
    (hf : ∀ names ∈ fieldNames, ∀ key ∈ names.2,
      fields names.1 key = (sources.flatMap (Tree.assignments names.1 key)).getLast?) :
    Settings.ofTree (.ofSources sources) = ofFields fields := by
  refine ofTree_eq fun names hnames => ?_
  have hplain : ∀ source ∈ sources, ∀ e ∈ source,
      Tree.Plain names.1 names.2 (Address.read e.1) e.2 :=
    fun source hs e he => hp source hs e he names hnames
  obtain ⟨field, hfield⟩ := exists_field names hnames
  refine ⟨(Tree.ofSources_plain hplain hfield).1, fun key hkey => ?_⟩
  rw [(Tree.ofSources_plain hplain hkey).2, hf names hnames key hkey]

/-! ## Layers -/

variable {files : Files} {vars : Variables} {base : Path} {environment : Option String}
  {document overlay : List (String × Tree)}

/-- The value of a key in a document.  A key with several values has none that could be
relied on. -/
def valueIn? (source : List (String × Tree)) (sectionName key : String) : Option Tree :=
  match Tree.assignments sectionName key source with
  | [value] => some value
  | _ => none

theorem getLast?_assignments {source : List (String × Tree)} {sectionName key : String}
    (h : (Tree.assignments sectionName key source).length ≤ 1) :
    (Tree.assignments sectionName key source).getLast? = valueIn? source sectionName key := by
  unfold valueIn?
  match Tree.assignments sectionName key source, h with
  | [], _ => rfl
  | [value], _ => rfl

/-- The value of a key in the strongest layer that has one. -/
def layered (vars : Variables) (overlay document : List (String × Tree)) (sectionName : String) :
    Fields := fun key =>
  ((Environment.valueFor? vars sectionName key).or (valueIn? overlay sectionName key)).or
    (valueIn? document sectionName key)

theorem address_name_fieldNames : ∀ names ∈ fieldNames, Address.Name names.1 := by
  decide +kernel

/-- Layers are read key by key. -/
theorem ofTree_layers (hd : Tree.PlainSource fieldNames document)
    (ho : Tree.PlainSource fieldNames overlay) (hds : Tree.SingleValued fieldNames document)
    (hos : Tree.SingleValued fieldNames overlay) (hv : Environment.Regular vars)
    {fields : String → Fields}
    (hf : ∀ names ∈ fieldNames, ∀ key ∈ names.2,
      fields names.1 key = layered vars overlay document names.1 key) :
    Settings.ofTree (.ofSources [document, overlay, Environment.source vars]) =
      ofFields fields := by
  have hplain : ∀ source ∈ [document, overlay, Environment.source vars],
      Tree.PlainSource fieldNames source := by
    simp only [List.forall_mem_cons]
    exact ⟨hd, ho, Environment.plain_source hv, nofun⟩
  refine ofTree_ofSources hplain fun names hnames key hkey => ?_
  rw [hf names hnames key hkey, layered, ← getLast?_assignments (hds names hnames key hkey),
    ← getLast?_assignments (hos names hnames key hkey),
    ← Environment.assignments_eq hv (address_name_fieldNames names hnames)]
  simp only [List.flatMap_cons, List.flatMap_nil, List.append_nil, List.getLast?_append]

theorem loadFrom_eq_ofTree (hdocument : readDocument? files base = some document)
    (hoverlay : readEnvironment? files base environment = some overlay) :
    loadFrom files vars base environment =
      Settings.ofTree (.ofSources [document, overlay, Environment.source vars]) := by
  have hsources : sources? files vars base environment =
      some [document, overlay, Environment.source vars] := by
    simp [sources?, hdocument, hoverlay]
  rw [loadFrom, hsources]

/-- The names of a document in another order have the same values. -/
theorem valueIn?_of_reorders {source source' : List (String × Tree)}
    (h : Tree.Reorders (.table source) (.table source'))
    (hp : Tree.PlainSource fieldNames source) (hs : Tree.SingleValued fieldNames source) :
    ∀ names ∈ fieldNames, ∀ key ∈ names.2,
      valueIn? source' names.1 key = valueIn? source names.1 key := by
  intro names hnames key hkey
  rw [valueIn?, valueIn?, (h.singleValued hp hs).2 names hnames key hkey]

/-! ## Names that stand for themselves -/

/-- Entries by their names in lower case. -/
def lowered (entries : List (String × Tree)) : List (String × Tree) :=
  entries.map fun e => (lowerName e.1, e.2)

/-- The value of a key in a document whose outermost names are taken as they stand. -/
def standing? (source : List (String × Tree)) (sectionName key : String) : Option Tree :=
  ((lowered source).lookup sectionName).bind fun t => (lowered t.entries).lookup key

/-- A document without names that differ in case only. -/
structure Distinct (source : List (String × Tree)) : Prop where
  outside : ((lowered source).map Prod.fst).Nodup
  inside : ∀ e ∈ source, ((lowered e.2.entries).map Prod.fst).Nodup

theorem valuesOf_eq_lookup {entries : List (String × Tree)} {key : String}
    (h : ((lowered entries).map Prod.fst).Nodup) :
    Tree.valuesOf key entries = ((lowered entries).lookup key).toList := by
  rw [← flatMap_eq_lookup h, lowered, List.flatMap_map, Tree.valuesOf_eq_flatMap]

/-- Where no outermost name is an address, a key has the value in the table of its
section, and no other. -/
theorem assignments_eq_standing {source : List (String × Tree)} (h : Distinct source)
    (hread : ∀ e ∈ source, Address.read e.1 = [.entry e.1]) (sectionName key : String) :
    Tree.assignments sectionName key source = (standing? source sectionName key).toList := by
  have hassigned : Tree.assignments sectionName key source =
      ((lowered source).flatMap fun e => if e.1 = sectionName then [e.2] else []).flatMap
        fun t => ((lowered t.entries).lookup key).toList := by
    rw [lowered, List.flatMap_map, List.flatMap_assoc]
    refine List.flatMap_congr fun e he => ?_
    change Tree.assigned sectionName key (Address.read e.1) e.2 = _
    rw [hread e he, Tree.assigned, valuesOf_eq_lookup (h.inside e he)]
    split <;> simp
  rw [hassigned, flatMap_eq_lookup h.outside, standing?]
  cases (lowered source).lookup sectionName with
  | none => rfl
  | some t => simp

theorem valueIn?_eq_standing {source : List (String × Tree)} (h : Distinct source)
    (hread : ∀ e ∈ source, Address.read e.1 = [.entry e.1]) (sectionName key : String) :
    valueIn? source sectionName key = standing? source sectionName key := by
  rw [valueIn?, assignments_eq_standing h hread]
  cases standing? source sectionName key <;> rfl

theorem singleValued_of_distinct {source : List (String × Tree)} (h : Distinct source)
    (hread : ∀ e ∈ source, Address.read e.1 = [.entry e.1]) :
    Tree.SingleValued fieldNames source := by
  intro names _ key _
  rw [assignments_eq_standing h hread]
  cases standing? source names.1 key <;> simp

/-! ## Loading -/

/-- Loading is looking up every key by itself, where every section is a table and every
key a scalar in all layers, no file gives two values to one key, and no two variables
have one key.  A key has the value of its variable, or else its value in the overlay, or
else that in the base file; where outermost names stand for themselves and none differ
in case only this is the value in the table of the section.  Other keys, unmarked
variables, the order of variables and the order of the names in files do not count, and
an overlay without a file is none. -/
theorem layered_loading (hdocument : readDocument? files base = some document)
    (hoverlay : readEnvironment? files base environment = some overlay)
    (hd : Tree.PlainSource fieldNames document) (ho : Tree.PlainSource fieldNames overlay)
    (hds : Tree.SingleValued fieldNames document) (hos : Tree.SingleValued fieldNames overlay)
    (hv : Environment.Regular vars) :
    (∀ fields : String → Fields,
      (∀ names ∈ fieldNames, ∀ key ∈ names.2,
        fields names.1 key = layered vars overlay document names.1 key) →
      loadFrom files vars base environment = ofFields fields) ∧
    (∀ names ∈ fieldNames, ∀ key ∈ names.2,
      (∀ value, Environment.valueFor? vars names.1 key = some value ↔
        ∃ name text, (name, text) ∈ vars ∧
          Environment.address? name = some (names.1 ++ "." ++ key) ∧
          Environment.valueOf text = value) ∧
      ∀ name, lowerName name = lowerName (Environment.variableName names.1 key) →
        Environment.address? name = some (names.1 ++ "." ++ key)) ∧
    (∀ source, Distinct source → (∀ e ∈ source, Address.read e.1 = [.entry e.1]) →
      Tree.SingleValued fieldNames source ∧
        ∀ sectionName key, valueIn? source sectionName key = standing? source sectionName key) ∧
    (∀ vars' : Variables,
      (vars'.filter fun e => Environment.marked e.1).Perm
        (vars.filter fun e => Environment.marked e.1) →
      loadFrom files vars' base environment = loadFrom files vars base environment) ∧
    (∀ document' overlay', Tree.Reorders (.table document) (.table document') →
      Tree.Reorders (.table overlay) (.table overlay') →
      Settings.ofTree (.ofSources [document', overlay', Environment.source vars]) =
        loadFrom files vars base environment) ∧
    ∀ name, environment = some name → files.isThere (environmentPath base name) = false →
      loadFrom files vars base environment = loadFrom files vars base none := by
  have hload : ∀ {vars : Variables}, Environment.Regular vars → ∀ {fields : String → Fields},
      (∀ names ∈ fieldNames, ∀ key ∈ names.2,
        fields names.1 key = layered vars overlay document names.1 key) →
      loadFrom files vars base environment = ofFields fields := by
    intro vars hv fields hf
    rw [loadFrom_eq_ofTree hdocument hoverlay]
    exact ofTree_layers hd ho hds hos hv hf
  refine ⟨fun fields hf => hload hv hf,
    fun names hnames key hkey => ⟨fun value => Environment.valueFor?_eq_some_iff hv,
      Environment.address?_variableName names hnames key hkey⟩,
    fun source h hread => ⟨singleValued_of_distinct h hread, valueIn?_eq_standing h hread⟩,
    fun vars' hperm => ?_, fun document' overlay' hd' ho' => ?_, fun name hname habsent => ?_⟩
  · have hsource := Environment.source_perm hperm
    have hfields : ∀ names ∈ fieldNames, ∀ key ∈ names.2,
        layered vars overlay document names.1 key = layered vars' overlay document names.1 key := by
      intro names _ key _
      rw [layered, layered, Environment.valueFor?_perm hv hsource]
    rw [hload (hv.perm hsource) hfields, hload hv fun _ _ _ _ => rfl]
  · have hfields : ∀ names ∈ fieldNames, ∀ key ∈ names.2,
        layered vars overlay document names.1 key =
          layered vars overlay' document' names.1 key := by
      intro names hnames key hkey
      rw [layered, layered, valueIn?_of_reorders hd' hd hds names hnames key hkey,
        valueIn?_of_reorders ho' ho hos names hnames key hkey]
    rw [hload hv fun _ _ _ _ => rfl]
    exact ofTree_layers (hd'.plainSource hd exists_field) (ho'.plainSource ho exists_field)
      (hd'.singleValued hd hds).1 (ho'.singleValued ho hos).1 hv hfields
  · have hnone : readEnvironment? files base environment = readEnvironment? files base none := by
      simp [hname, readEnvironment?, habsent]
    rw [loadFrom, loadFrom, sources?, sources?, hnone]

/-- A base file, an overlay and some variables for a few fields in common. -/
def threeLayers : Files :=
  .ofList [("vamm.toml", "[curve]\na = 5\ngamma = 0.01\nmid_fee = 0.003\n"),
    ("environments/test.toml", "[curve]\ngamma = \"0.02\"\nmid_fee = 0.004\n[other]\na = 1\n")]

/-- A variable for a field, in mixed case, and one that is no setting. -/
def threeVariables : Variables :=
  [("HOME", "/"), ("vamm_Curve__Mid_Fee", "0.005")]

theorem regular_threeVariables : Environment.Regular threeVariables := by
  have hkeys : (Environment.source threeVariables).map Prod.fst = ["curve" ++ "." ++ "mid_fee"] := by
    decide +kernel
  have hkey : ∀ e ∈ Environment.source threeVariables, e.1 = "curve" ++ "." ++ "mid_fee" :=
    fun e he => List.mem_singleton.mp (hkeys ▸ List.mem_map_of_mem he)
  refine ⟨fun e he => ?_, ?_, fun e he names hnames => ?_⟩
  · rw [hkey e he]
    exact .inner (by decide) (by decide)
  · rw [hkeys]
    exact List.nodup_singleton _
  · rw [hkey e he]
    revert names
    decide +kernel

theorem layered_loading_three :
    ∃ document overlay,
      readDocument? threeLayers (.ofString "vamm.toml") = some document ∧
      readEnvironment? threeLayers (.ofString "vamm.toml") (some "test") = some overlay ∧
      Tree.PlainSource fieldNames document ∧ Tree.PlainSource fieldNames overlay ∧
      Tree.SingleValued fieldNames document ∧ Tree.SingleValued fieldNames overlay ∧
      Environment.Regular threeVariables ∧
      loadFrom threeLayers threeVariables (.ofString "vamm.toml") (some "test") =
        ofFields (layered threeVariables overlay document) := by
  obtain ⟨document, hdocument, hd⟩ := (Option.any_eq_true _ _).mp
    (show (readDocument? threeLayers (.ofString "vamm.toml")).any (fun d => decide
      (Tree.PlainSource fieldNames d ∧ Tree.SingleValued fieldNames d)) = true by decide +kernel)
  obtain ⟨overlay, hoverlay, ho⟩ := (Option.any_eq_true _ _).mp
    (show (readEnvironment? threeLayers (.ofString "vamm.toml") (some "test")).any (fun d => decide
      (Tree.PlainSource fieldNames d ∧ Tree.SingleValued fieldNames d)) = true by decide +kernel)
  obtain ⟨hd, hds⟩ := of_decide_eq_true hd
  obtain ⟨ho, hos⟩ := of_decide_eq_true ho
  exact ⟨document, overlay, hdocument, hoverlay, hd, ho, hds, hos, regular_threeVariables,
    (layered_loading hdocument hoverlay hd ho hds hos regular_threeVariables).1 _
      fun _ _ _ _ => rfl⟩

/-! ### Quoted addresses -/

/-- A file whose only name is no section, and is quoted. -/
def quotedAddress : Files :=
  .ofList [("vamm.toml", "\"curve.mid_fee\" = 0.003\n")]

/-- A quoted outermost name is an address all the same, so it reaches into a section that
the file does not have. -/
theorem quoted_name_reaches_in :
    ∃ document, readDocument? quotedAddress (.ofString "vamm.toml") = some document ∧
      Distinct document ∧ (∀ e ∈ document, ∀ names ∈ fieldNames, lowerName e.1 ≠ names.1) ∧
      loadFrom quotedAddress [] (.ofString "vamm.toml") none ≠ ofFields (standing? document) := by
  obtain ⟨document, hdocument, h⟩ := (Option.any_eq_true _ _).mp
    (show (readDocument? quotedAddress (.ofString "vamm.toml")).any (fun d => decide
      (((lowered d).map Prod.fst).Nodup ∧
        (∀ e ∈ d, ((lowered e.2.entries).map Prod.fst).Nodup) ∧
        (∀ e ∈ d, ∀ names ∈ fieldNames, lowerName e.1 ≠ names.1) ∧
        (ofFields (standing? d)).toOption.map (·.curve.feeRate.toBits) =
          some (0.0005 : Float).toBits)) = true by decide +kernel)
  obtain ⟨houtside, hinside, hnames, hfee⟩ := of_decide_eq_true h
  refine ⟨document, hdocument, ⟨houtside, hinside⟩, hnames, fun heq => ?_⟩
  have hloaded : (loadFrom quotedAddress [] (.ofString "vamm.toml") none).toOption.map
      (·.curve.feeRate.toBits) = some (0.003 : Float).toBits := by decide +kernel
  rw [heq, hfee] at hloaded
  revert hloaded
  decide +kernel

end VirtualMarket.Settings
