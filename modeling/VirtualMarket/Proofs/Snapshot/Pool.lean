/-
VirtualMarket.Proofs.Snapshot.Pool — which snapshots give a pool.

A snapshot is twelve texts, read one after another.  Reading them is a traversal of
the list of its fields, so it succeeds if every field does and fails like the first
that fails.  What is left of the test of the state is whether the six amounts that
everything divides by are zero, since no other amount becomes zero or infinite.
-/
import VirtualMarket.Proofs.Market.Validity
import VirtualMarket.Proofs.Snapshot.FixedPoint

namespace VirtualMarket

open Double

/-! ## Traversals -/

section

variable {α β ε : Type} {g : α → Except ε β} {R S : α → β → Prop}

/-- Every element has a partner if and only if there is a list of partners. -/
theorem exists_forall₂_iff {xs : List α} :
    (∃ ys, List.Forall₂ R xs ys) ↔ ∀ a ∈ xs, ∃ b, R a b := by
  induction xs with
  | nil => simp
  | cons a xs ih => simp [List.forall₂_cons_left_iff, ← ih]

theorem forall₂_imp_of_mem {xs : List α} {ys : List β} (h : ∀ a ∈ xs, ∀ b, R a b → S a b)
    (hxs : List.Forall₂ R xs ys) : List.Forall₂ S xs ys :=
  ((List.forall₂_and_left _ _).mpr ⟨fun _ => id, hxs⟩).imp fun a b hab => h a hab.1 b hab.2

theorem mapM_eq_ok {xs : List α} {ys : List β} :
    xs.mapM g = .ok ys ↔ List.Forall₂ (fun a b => g a = .ok b) xs ys := by
  induction xs generalizing ys with
  | nil =>
    rw [List.mapM_nil, List.forall₂_nil_left_iff]
    exact ⟨fun h => (Except.ok.inj h).symm, fun h => h ▸ rfl⟩
  | cons a xs ih =>
    rw [List.mapM_cons]
    constructor
    · intro h
      cases ha : g a with
      | error e => simp [ha, bind, Except.bind] at h
      | ok b =>
        cases hxs : xs.mapM g with
        | error e => simp [ha, hxs, bind, Except.bind] at h
        | ok bs =>
          obtain rfl : b :: bs = ys := by simpa [ha, hxs, bind, Except.bind, pure, Except.pure] using h
          exact .cons ha (ih.mp hxs)
    · rintro (_ | ⟨ha, hxs⟩)
      simp [ha, ih.mpr hxs, bind, Except.bind, pure, Except.pure]

/-- A traversal fails like the first element that fails. -/
theorem mapM_eq_error {before after : List α} {a : α} {e : ε}
    (hb : ∀ b ∈ before, ∃ y, g b = .ok y) (ha : g a = .error e) :
    (before ++ a :: after).mapM g = .error e := by
  induction before with
  | nil => simp [ha, bind, Except.bind]
  | cons b before ih =>
    obtain ⟨y, hy⟩ := hb b List.mem_cons_self
    rw [List.cons_append, List.mapM_cons, hy, ih fun b hm => hb b (List.mem_cons_of_mem _ hm)]
    rfl

end

/-! ## Fields -/

/-- A field of a snapshot: its name in messages, its text, its decimals, and whether
its amount must not be zero. -/
structure SnapshotField where
  name : String
  text : String
  decimals : Nat
  essential : Bool := false

namespace SnapshotField

def decode (f : SnapshotField) : Outcome Float :=
  FixedPoint.decode f.name f.text f.decimals

/-- The text is that of an amount. -/
def Acceptable (f : SnapshotField) : Prop :=
  ∃ n, FixedPoint.Amount f.text n

/-- The field stands for a double: its amount at its decimals. -/
def Reads (f : SnapshotField) (x : Float) : Prop :=
  ∃ n, FixedPoint.Amount f.text n ∧ x = FixedPoint.toDouble n f.decimals

end SnapshotField

namespace RawSnapshot

open SnapshotField

/-- The fields in the order in which they are read. -/
def fields (raw : RawSnapshot) : List SnapshotField :=
  [{ name := "balances[0]", text := raw.quoteBalance, decimals := 6, essential := true },
    { name := "balances[1]", text := raw.baseBalance, decimals := 18, essential := true },
    { name := "D", text := raw.invariant, decimals := 18, essential := true },
    { name := "price_scale", text := raw.priceScale, decimals := 18, essential := true },
    { name := "price_oracle", text := raw.priceOracle, decimals := 18 },
    { name := "last_prices", text := raw.lastPrices, decimals := 18 },
    { name := "ma_half_time", text := raw.halfLife, decimals := 0, essential := true },
    { name := "total_supply", text := raw.totalSupply, decimals := 18, essential := true },
    { name := "xcp_profit", text := raw.profit, decimals := 18 },
    { name := "virtual_price", text := raw.virtualPrice, decimals := 18 },
    { name := "adjustment_step", text := raw.minimumStep, decimals := 18 },
    { name := "allowed_extra_profit", text := raw.profitCushion, decimals := 18 }]

/-- The state of a snapshot whose fields stand for the given doubles. -/
def assemble (raw : RawSnapshot) (xs : List Float) : State where
  reserves := ⟨xs.getD 0 0, xs.getD 1 0⟩
  invariant := xs.getD 2 0
  priceScale := xs.getD 3 0
  priceOracle := xs.getD 4 0
  lastPrice := xs.getD 5 0
  lastUpdate := raw.lastUpdate
  halfLife := xs.getD 6 0
  totalSupply := xs.getD 7 0
  profit := xs.getD 8 0
  virtualPrice := xs.getD 9 0
  minimumStep := xs.getD 10 0
  profitCushion := xs.getD 11 0
  latch := if raw.notAdjusted then .pending else .settled

/-- Reading a snapshot is reading its fields one after another. -/
theorem decode_eq (raw : RawSnapshot) :
    raw.decode = raw.fields.mapM SnapshotField.decode >>= fun xs => .ok (raw.assemble xs) := by
  simp only [fields, List.mapM_cons, List.mapM_nil, bind_assoc, pure_bind]
  rfl

variable {raw : RawSnapshot} {s : State}

theorem decode_eq_ok : raw.decode = .ok s ↔
    ∃ xs, List.Forall₂ (fun f x => f.decode = .ok x) raw.fields xs ∧ s = raw.assemble xs := by
  rw [decode_eq, Outcome.bind_eq_ok]
  simp only [mapM_eq_ok, Except.ok.injEq]
  exact exists_congr fun xs => and_congr_right fun _ => eq_comm

/-- The first field whose text is refused is blamed, whatever comes after it. -/
theorem decode_eq_error {before after : List SnapshotField} {f : SnapshotField}
    (hsplit : raw.fields = before ++ f :: after) (hb : ∀ g ∈ before, ∃ x, g.decode = .ok x)
    {fault : Fault} (hf : f.decode = .error fault) : raw.decode = .error fault := by
  rw [decode_eq, hsplit, mapM_eq_error hb hf]
  rfl

end RawSnapshot

/-- The quantities of a state in the order of the fields of a snapshot. -/
def State.quantities (s : State) : List Float :=
  [s.reserves.quote, s.reserves.base, s.invariant, s.priceScale, s.priceOracle, s.lastPrice,
    s.halfLife, s.totalSupply, s.profit, s.virtualPrice, s.minimumStep, s.profitCushion]

namespace RawSnapshot

variable {raw : RawSnapshot} {f : SnapshotField} {x : Float} {xs : List Float}

theorem decimals_of_mem (h : f ∈ raw.fields) :
    f.decimals = 0 ∨ f.decimals = 6 ∨ f.decimals = 18 := by
  revert f
  simp [fields]

theorem decode_field_eq_ok (h : f ∈ raw.fields) : f.decode = .ok x ↔ f.Reads x := by
  refine FixedPoint.decode_eq_ok ?_
  rcases decimals_of_mem h with hd | hd | hd <;> rw [hd] <;> decide

theorem exists_decode_iff (h : f ∈ raw.fields) : (∃ x, f.decode = .ok x) ↔ f.Acceptable := by
  simp only [decode_field_eq_ok h]
  exact ⟨fun ⟨_, n, hn, _⟩ => ⟨n, hn⟩, fun ⟨n, hn⟩ => ⟨_, n, hn, rfl⟩⟩

theorem forall₂_decode_iff : List.Forall₂ (fun f x => f.decode = .ok x) raw.fields xs ↔
    List.Forall₂ SnapshotField.Reads raw.fields xs := by
  exact ⟨forall₂_imp_of_mem fun _ hm _ => (decode_field_eq_ok hm).mp,
    forall₂_imp_of_mem fun _ hm _ => (decode_field_eq_ok hm).mpr⟩

/-! ## Usable states -/

/-- A field stands for a positive double unless its amount is zero. -/
theorem positive_iff_of_reads (h : f ∈ raw.fields) (hx : f.Reads x) :
    Positive x ↔ ¬ FixedPoint.Amount f.text 0 := by
  obtain ⟨n, hn, rfl⟩ := hx
  rcases FixedPoint.toDouble_cases (decimals_of_mem h) hn.2 with ⟨rfl, h0⟩ | ⟨hne, hpos⟩
  · rw [h0]
    exact iff_of_false (fun h => absurd h.beq_zero (by decide)) (not_not.mpr hn)
  · exact iff_of_true hpos fun h0 => hne (hn.unique h0)

theorem quantities_assemble (h : List.Forall₂ SnapshotField.Reads raw.fields xs) :
    (raw.assemble xs).quantities = xs := by
  simp only [fields, List.forall₂_cons_left_iff, List.forall₂_nil_left_iff] at h
  obtain ⟨x0, _, -, ⟨x1, _, -, ⟨x2, _, -, ⟨x3, _, -, ⟨x4, _, -, ⟨x5, _, -, ⟨x6, _, -, ⟨x7, _, -,
    ⟨x8, _, -, ⟨x9, _, -, ⟨x10, _, -, ⟨x11, _, -, rfl, rfl⟩, rfl⟩, rfl⟩, rfl⟩, rfl⟩, rfl⟩, rfl⟩,
    rfl⟩, rfl⟩, rfl⟩, rfl⟩, rfl⟩ := h
  rfl

/-- The state of a snapshot is valid unless an essential amount is zero. -/
theorem valid_assemble_iff (h : List.Forall₂ SnapshotField.Reads raw.fields xs) :
    (raw.assemble xs).Valid ↔
      ∀ f ∈ raw.fields, f.essential = true → ¬ FixedPoint.Amount f.text 0 := by
  have hpositive : List.Forall₂ (fun f x => Positive x ↔ ¬ FixedPoint.Amount f.text 0)
      raw.fields xs := forall₂_imp_of_mem (fun _ hm _ => positive_iff_of_reads hm) h
  simp only [fields, List.forall₂_cons_left_iff, List.forall₂_nil_left_iff] at hpositive
  obtain ⟨x0, _, h0, ⟨x1, _, h1, ⟨x2, _, h2, ⟨x3, _, h3, ⟨x4, _, -, ⟨x5, _, -, ⟨x6, _, h6,
    ⟨x7, _, h7, ⟨x8, _, -, ⟨x9, _, -, ⟨x10, _, -, ⟨x11, _, -, rfl, rfl⟩, rfl⟩, rfl⟩, rfl⟩, rfl⟩,
    rfl⟩, rfl⟩, rfl⟩, rfl⟩, rfl⟩, rfl⟩, rfl⟩ := hpositive
  have hessential : (∀ f ∈ raw.fields, f.essential = true → ¬ FixedPoint.Amount f.text 0) ↔
      Positive x0 ∧ Positive x1 ∧ Positive x2 ∧ Positive x3 ∧ Positive x6 ∧ Positive x7 := by
    simp [fields, h0, h1, h2, h3, h6, h7]
  rw [State.valid_iff, hessential]
  exact ⟨fun ⟨hq, hb, hi, hp, hs, hl⟩ => ⟨hq, hb, hi, hp, hl, hs⟩,
    fun ⟨hq, hb, hi, hp, hl, hs⟩ => ⟨hq, hb, hi, hp, hs, hl⟩⟩

end RawSnapshot

/-! ## Pools -/

/-- A snapshot of one unit of quote and one of base, its texts written in several of the
ways that are accepted. -/
def RawSnapshot.units : RawSnapshot where
  quoteBalance := "1000000"
  baseBalance := " 1000000000000000000 "
  priceScale := "+1000000000000000000"
  priceOracle := "001000000000000000000"
  lastPrices := "1000000000000000000"
  halfLife := "600"
  totalSupply := "1000000000000000000"
  profit := "1000000000000000000"
  virtualPrice := "1000000000000000000"
  minimumStep := "-0"
  profitCushion := "0"
  notAdjusted := false
  invariant := "2000000000000000000"
  lastUpdate := 0

namespace Pool

variable {curve : Curve} {tracking : Tracking} {raw : RawSnapshot} {p : Pool}

theorem ofSnapshot_eq_ok : ofSnapshot curve tracking raw = .ok p ↔
    curve.validate = .ok () ∧ tracking.validate = .ok () ∧
      ∃ xs, List.Forall₂ SnapshotField.Reads raw.fields xs ∧ (raw.assemble xs).Valid ∧
        p = ⟨curve, tracking, raw.assemble xs⟩ := by
  unfold ofSnapshot
  rw [Outcome.bind_eq_ok]
  simp only [RawSnapshot.decode_eq_ok, RawSnapshot.forall₂_decode_iff, ofState_eq_ok]
  constructor
  · rintro ⟨_, ⟨xs, hxs, rfl⟩, hc, ht, hv, hp⟩
    exact ⟨hc, ht, xs, hxs, hv, hp⟩
  · rintro ⟨hc, ht, xs, hxs, hv, hp⟩
    exact ⟨_, ⟨xs, hxs, rfl⟩, hc, ht, hv, hp⟩

/-- Snapshots are accepted exactly where they can be used: the parameters pass their
tests, every text is that of an amount, and the essential amounts are not zero.  All
quantities of the pool are then finite and not negative, and zero only where the
amount is.  Otherwise the first text that is refused is blamed, before anything is
said about the parameters. -/
theorem snapshot_accepted (curve : Curve) (tracking : Tracking) (raw : RawSnapshot) :
    ((∃ p, ofSnapshot curve tracking raw = .ok p) ↔
        curve.validate = .ok () ∧ tracking.validate = .ok () ∧
          ∀ f ∈ raw.fields, ∃ n, FixedPoint.Amount f.text n ∧ (f.essential = true → n ≠ 0)) ∧
      (∀ p, ofSnapshot curve tracking raw = .ok p →
        List.Forall₂ (fun f x => ∃ n, FixedPoint.Amount f.text n ∧
            x = FixedPoint.toDouble n f.decimals ∧ x.isFinite = true ∧ 0 ≤ x ∧
              ((x == 0) = true → n = 0))
          raw.fields p.state.quantities) ∧
      ∀ before f after, raw.fields = before ++ f :: after →
        (∀ g ∈ before, g.Acceptable) → ¬ f.Acceptable →
          ∃ flaw, ofSnapshot curve tracking raw = .error (.invalidSnapshot flaw) ∧
            flaw.field = f.name := by
  refine ⟨?_, fun p hp => ?_, fun before f after hsplit hbefore hf => ?_⟩
  · simp only [ofSnapshot_eq_ok]
    constructor
    · rintro ⟨p, hc, ht, xs, hxs, hv, -⟩
      refine ⟨hc, ht, fun f hm => ?_⟩
      obtain ⟨x, n, hn, -⟩ := exists_forall₂_iff.mp ⟨xs, hxs⟩ f hm
      refine ⟨n, hn, fun he h0 => ?_⟩
      exact (RawSnapshot.valid_assemble_iff hxs).mp hv f hm he (h0 ▸ hn)
    · rintro ⟨hc, ht, hall⟩
      obtain ⟨xs, hxs⟩ : ∃ xs, List.Forall₂ SnapshotField.Reads raw.fields xs := by
        refine exists_forall₂_iff.mpr fun f hm => ?_
        obtain ⟨n, hn, -⟩ := hall f hm
        exact ⟨_, n, hn, rfl⟩
      refine ⟨_, hc, ht, xs, hxs, ?_, rfl⟩
      refine (RawSnapshot.valid_assemble_iff hxs).mpr fun f hm he h0 => ?_
      obtain ⟨n, hn, hne⟩ := hall f hm
      exact hne he (hn.unique h0)
  · obtain ⟨-, -, xs, hxs, -, rfl⟩ := ofSnapshot_eq_ok.mp hp
    rw [RawSnapshot.quantities_assemble hxs]
    refine forall₂_imp_of_mem (fun f hm x => ?_) hxs
    rintro ⟨n, hn, rfl⟩
    refine ⟨n, hn, rfl, ?_⟩
    rcases FixedPoint.toDouble_cases (RawSnapshot.decimals_of_mem hm) hn.2 with
      ⟨h0, hx⟩ | ⟨-, hx⟩
    · rw [hx]
      exact ⟨rfl, Double.le_refl rfl, fun _ => h0⟩
    · obtain ⟨hpos, hfinite⟩ := positive_iff.mp hx
      exact ⟨hfinite, Double.le_of_lt hpos, fun h => absurd h (by simp [hx.beq_zero])⟩
  · have hmem : f ∈ raw.fields := hsplit ▸ List.mem_append_right _ List.mem_cons_self
    have hread : ∀ g ∈ before, ∃ x, g.decode = .ok x := fun g hg =>
      (RawSnapshot.exists_decode_iff (hsplit ▸ List.mem_append_left _ hg)).mpr (hbefore g hg)
    cases hd : f.decode with
    | ok x => exact absurd ((RawSnapshot.exists_decode_iff hmem).mp ⟨x, hd⟩) hf
    | error fault =>
      obtain ⟨flaw, rfl, hname⟩ := FixedPoint.field_of_decode hd
      refine ⟨flaw, ?_, hname⟩
      rw [ofSnapshot, RawSnapshot.decode_eq_error hsplit hread hd]
      rfl

/-- The snapshot is accepted; with a half-life that is no number it is refused, and the
half-life is blamed. -/
theorem snapshot_accepted_units :
    (∃ p, ofSnapshot {} {} RawSnapshot.units = .ok p ∧ p.state.quantities.length = 12) ∧
      ∃ flaw, ofSnapshot {} {} { RawSnapshot.units with halfLife := "6e2" }
        = .error (.invalidSnapshot flaw) ∧ flaw.field = "ma_half_time" := by
  constructor
  · obtain ⟨-, hquantities, -⟩ := snapshot_accepted {} {} RawSnapshot.units
    obtain ⟨p, hp⟩ := Outcome.isOk_iff.mp
      (show (ofSnapshot {} {} RawSnapshot.units).isOk = true by decide +kernel)
    exact ⟨p, hp, (hquantities p hp).length_eq.symm⟩
  · obtain ⟨-, -, hblamed⟩ :=
      snapshot_accepted {} {} { RawSnapshot.units with halfLife := "6e2" }
    have hsplit := (List.take_append_drop 6
      { RawSnapshot.units with halfLife := "6e2" : RawSnapshot }.fields).symm
    refine hblamed _ _ _ hsplit (fun g hg => ?_) fun h => ?_
    · have hread : ∀ g ∈ { RawSnapshot.units with halfLife := "6e2" : RawSnapshot }.fields.take 6,
          g.decode.isOk = true := by decide +kernel
      exact (RawSnapshot.exists_decode_iff (List.mem_of_mem_take hg)).mp
        (Outcome.isOk_iff.mp (hread g hg))
    · obtain ⟨n, hn⟩ := h
      have hbad : Decimal.signed128.read (Text.trimBlank "6e2".toList) = .error .invalidDigit := by
        decide +kernel
      cases hbad.symm.trans hn.read

end Pool

end VirtualMarket
