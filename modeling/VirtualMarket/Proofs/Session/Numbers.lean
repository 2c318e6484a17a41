/-
VirtualMarket.Proofs.Session.Numbers — which settings may be no number.

A test can say which values are fine or which are wrong.  No comparison with a NaN
holds, so a test of the first kind refuses it and one of the second kind lets it
pass.  All tests of reals in the settings are of the first kind, but for one: the
minimum step and the profit cushion of a tracking policy are refused if they are
negative.  These two, and no other real of the settings, may be a NaN.  It is not
harmless there: a market that starts with such a cushion keeps its peg for good.
-/
import VirtualMarket.Proofs.Market.Latch
import VirtualMarket.Proofs.Session.Faults
import VirtualMarket.Proofs.Snapshot.Pool
import VirtualMarket.Settings.Printer

namespace VirtualMarket

open Double

/-! ## Fields -/

/-- A real that is no number. -/
def Settings.Written.isNaN : Settings.Written → Bool
  | .real x => x.isNaN
  | _ => false

/-- The reals of a tracking policy that are tested against negative values. -/
def Tracking.unguarded : List String :=
  ["adjustment_step", "allowed_extra_profit"]

/-- A tracking policy with another minimum step and another cushion. -/
def Tracking.retuned (t : Tracking) (step cushion : Float) : Tracking :=
  { t with minimumStep := step, profitCushion := cushion }

/-! ## What the tests leave -/

theorem Band.isNaN_of_contains {b : Band} {x : Float} (h : b.contains x = true) :
    x.isNaN = false :=
  isNaN_right_of_le (contains_iff.mp h).1

theorem Tracking.validate_retuned_iff {t : Tracking} (h : t.validate = .ok ())
    {step cushion : Float} :
    (t.retuned step cushion).validate = .ok () ↔ Unrefuted step ∧ Unrefuted cushion := by
  obtain ⟨hlife, -, hinterval⟩ := validate_eq_ok.mp h
  rw [validate_eq_ok]
  exact ⟨fun h => h.2.1, fun h => ⟨hlife, h, hinterval⟩⟩

namespace Settings

variable {s : Settings}

/-- The settings with another minimum step and another cushion. -/
def retuned (s : Settings) (step cushion : Float) : Settings :=
  { s with tracking := s.tracking.retuned step cushion }

/-- No field holds a NaN. -/
def Numeric (s : Settings) : Prop :=
  ∀ part ∈ s.sections, ∀ field ∈ part.fields, field.2.isNaN = false

/-- No field holds a NaN but the two that are not guarded against it. -/
structure Guarded (s : Settings) : Prop where
  only : ∀ part ∈ s.sections, ∀ field ∈ part.fields, field.2.isNaN = true →
    part.name = "oracle" ∧ field.1 ∈ Tracking.unguarded
  numeric_iff : s.Numeric ↔
    s.tracking.minimumStep.isNaN = false ∧ s.tracking.profitCushion.isNaN = false

/-- What holds of the two reals, and of every number, holds of all fields of settings that
pass their test. -/
theorem forall_fields_of_validate (h : s.validate = .ok ())
    {P : String → String × Written → Prop}
    (hP : ∀ part field, field.2.isNaN = false → P part field) :
    (∀ part ∈ s.sections, ∀ field ∈ part.fields, P part.name field) ↔
      P "oracle" ("adjustment_step", .real s.tracking.minimumStep) ∧
        P "oracle" ("allowed_extra_profit", .real s.tracking.profitCushion) := by
  obtain ⟨hcurve, htracking, hsizing, hplan, hseed⟩ := validate_eq_ok.mp h
  obtain ⟨ha, hg, hf, -⟩ := Curve.validate_eq_ok.mp hcurve
  obtain ⟨hlife, -⟩ := Tracking.validate_eq_ok.mp htracking
  obtain ⟨hlot, -, htol, -⟩ := Sizing.validate_eq_ok.mp hsizing
  obtain ⟨⟨hmaker, -⟩, ⟨hband, -⟩, hbars⟩ := ReplayPlan.validate_eq_ok.mp hplan
  obtain ⟨hquote, hbase, hscale⟩ := Seed.validate_eq_ok.mp hseed
  have hreal (part name : String) {x : Float} (hx : x.isNaN = false) :
      P part (name, .real x) := hP part _ hx
  simp only [sections, List.forall_mem_cons, List.not_mem_nil, false_implies, implies_true,
    hreal _ _ (Band.isNaN_of_contains ha), hreal _ _ (Band.isNaN_of_contains hg),
    hreal _ _ (isNaN_right_of_le hf), hreal _ _ (isNaN_right_of_lt hlife),
    hreal _ _ hlot.unsigned.isNaN, hreal _ _ (isNaN_right_of_le htol),
    hreal _ _ (isNaN_right_of_lt hmaker), hreal _ _ (isNaN_right_of_lt hband),
    hreal _ _ (isNaN_right_of_lt hbars), hreal _ _ (isNaN_right_of_lt hquote),
    hreal _ _ (isNaN_right_of_lt hbase), hreal _ _ (isNaN_right_of_lt hscale),
    hP _ (_, .integer _) rfl, hP _ (_, .boolean _) rfl, true_and, and_true]

theorem guarded_of_validate (h : s.validate = .ok ()) : s.Guarded where
  only := by
    refine (forall_fields_of_validate (P := fun part field => field.2.isNaN = true →
      part = "oracle" ∧ field.1 ∈ Tracking.unguarded) h fun part field hn hnan => ?_).mpr
        ⟨fun _ => ⟨rfl, ?_⟩, fun _ => ⟨rfl, ?_⟩⟩
    · rw [hn] at hnan
      cases hnan
    · exact List.mem_cons_self
    · exact List.mem_cons_of_mem _ List.mem_cons_self
  numeric_iff := forall_fields_of_validate (P := fun _ field => field.2.isNaN = false) h
    fun _ _ hn => hn

theorem validate_retuned_iff (h : s.validate = .ok ()) {step cushion : Float} :
    (s.retuned step cushion).validate = .ok () ↔ Unrefuted step ∧ Unrefuted cushion := by
  obtain ⟨hcurve, htracking, hrest⟩ := validate_eq_ok.mp h
  rw [← Tracking.validate_retuned_iff htracking, validate_eq_ok]
  exact ⟨fun h => h.2.1, fun h => ⟨hcurve, h, hrest⟩⟩

end Settings

/-! ## Pools -/

namespace Pool

/-- What a pool is built from, besides its curve and its tracking policy. -/
inductive Origin where
  | state (s : State)
  | deposit (reserves : Reserves) (priceScale : Float) (now : Int)
  | snapshot (raw : RawSnapshot)

/-- The pool of an origin, with a given curve and tracking policy. -/
def Origin.build (curve : Curve) (tracking : Tracking) : Origin → Outcome Pool
  | .state s => ofState curve tracking s
  | .deposit reserves priceScale now => bootstrap curve tracking reserves priceScale now
  | .snapshot raw => ofSnapshot curve tracking raw

variable {curve : Curve} {tracking : Tracking} {p : Pool}

/-- Pools are built of what passes the tests. -/
theorem Origin.tested_of_build {origin : Origin} (h : origin.build curve tracking = .ok p) :
    curve.validate = .ok () ∧ tracking.validate = .ok () ∧ p.curve = curve ∧
      p.tracking = tracking := by
  cases origin with
  | state s =>
    obtain ⟨hc, ht, -, rfl⟩ := ofState_eq_ok.mp h
    exact ⟨hc, ht, rfl, rfl⟩
  | deposit reserves priceScale now =>
    obtain ⟨hc, ht, d, -, -, rfl⟩ := bootstrap_eq_ok.mp h
    exact ⟨hc, ht, rfl, rfl⟩
  | snapshot raw =>
    obtain ⟨hc, ht, xs, -, -, rfl⟩ := ofSnapshot_eq_ok.mp h
    exact ⟨hc, ht, rfl, rfl⟩

/-- Another minimum step and another cushion are no obstacle if the test lets them pass. -/
theorem Origin.build_retuned_iff {origin : Origin} (h : origin.build curve tracking = .ok p)
    {step cushion : Float} :
    (∃ p', origin.build curve (tracking.retuned step cushion) = .ok p') ↔
      Unrefuted step ∧ Unrefuted cushion := by
  rw [← Tracking.validate_retuned_iff (tested_of_build h).2.1]
  constructor
  · rintro ⟨p', h'⟩
    exact (tested_of_build h').2.1
  · intro ht
    cases origin with
    | state s =>
      obtain ⟨hc, -, hv, -⟩ := ofState_eq_ok.mp h
      exact ⟨_, ofState_eq_ok.mpr ⟨hc, ht, hv, rfl⟩⟩
    | deposit reserves priceScale now =>
      -- step and cushion become part of the state, where no test looks at them
      obtain ⟨hc, -, d, hd, hv, -⟩ := bootstrap_eq_ok.mp h
      exact ⟨_, bootstrap_eq_ok.mpr ⟨hc, ht, d, hd, hv, rfl⟩⟩
    | snapshot raw =>
      obtain ⟨hc, -, xs, hxs, hv, -⟩ := ofSnapshot_eq_ok.mp h
      exact ⟨_, ofSnapshot_eq_ok.mpr ⟨hc, ht, xs, hxs, hv, rfl⟩⟩

/-- The settings that a pool follows; the rest of them is as it always is. -/
def settings (p : Pool) : Settings :=
  { curve := p.curve, tracking := p.tracking }

theorem Origin.validate_settings {origin : Origin} (h : origin.build curve tracking = .ok p) :
    p.settings.validate = .ok () := by
  obtain ⟨hc, ht, rfl, rfl⟩ := tested_of_build h
  have hdefaults : ({} : Settings).validate = .ok () := rfl
  exact Settings.validate_eq_ok.mpr ⟨hc, ht, (Settings.validate_eq_ok.mp hdefaults).2.2⟩

end Pool

/-- Where settings may hold a NaN.  In settings that pass their test, and so in all that
anyone gets, every real but the minimum step and the cushion is a number, and these two
may be whatever is not negative, a NaN included.  The same holds of what a pool is built
with, from a state, a deposit or a snapshot. -/
theorem nan_where_unguarded (s : Settings) (curve : Curve) (tracking : Tracking)
    (origin : Pool.Origin) :
    (s.Obtained → s.validate = .ok ()) ∧
      (s.validate = .ok () → s.Guarded ∧
        ∀ step cushion, (s.retuned step cushion).validate = .ok () ↔
          Unrefuted step ∧ Unrefuted cushion) ∧
      ∀ p, origin.build curve tracking = .ok p →
        (p.curve = curve ∧ p.tracking = tracking) ∧ p.settings.Guarded ∧
          ∀ step cushion, (∃ p', origin.build curve (tracking.retuned step cushion) = .ok p') ↔
            Unrefuted step ∧ Unrefuted cushion := by
  refine ⟨Settings.Obtained.validate, fun h => ?_, fun p h => ?_⟩
  · exact ⟨s.guarded_of_validate h, fun _ _ => s.validate_retuned_iff h⟩
  · exact ⟨(Pool.Origin.tested_of_build h).2.2,
      p.settings.guarded_of_validate (Pool.Origin.validate_settings h),
      fun _ _ => Pool.Origin.build_retuned_iff h⟩

/-- The usual settings are still accepted with a NaN for both reals, and a market can be
opened with them. -/
theorem nan_where_unguarded_defaults :
    (Settings.retuned {} Float.nan Float.nan).validate = .ok () ∧
      ∃ p, (Pool.Origin.deposit ⟨1000, 1000⟩ 1 0).build {}
        (Tracking.retuned {} Float.nan Float.nan) = .ok p := by
  have hnan : Unrefuted Float.nan := .inl (by decide +kernel)
  obtain ⟨p, hp⟩ := Outcome.isOk_iff.mp
    (by decide +kernel : ((Pool.Origin.deposit ⟨1000, 1000⟩ 1 0).build {} {}).isOk = true)
  obtain ⟨-, hsettings, hpool⟩ :=
    nan_where_unguarded {} {} {} (Pool.Origin.deposit ⟨1000, 1000⟩ 1 0)
  exact ⟨((hsettings rfl).2 _ _).mpr ⟨hnan, hnan⟩, ((hpool p hp).2.2 _ _).mpr ⟨hnan, hnan⟩⟩

/-- A text of settings can spell out a NaN, and is accepted. -/
theorem nan_spelled_out :
    ∃ s, Settings.parse "[oracle]\nadjustment_step = nan\n" = .ok s ∧
      s.tracking.minimumStep.isNaN = true := by
  have h : (Settings.parse "[oracle]\nadjustment_step = nan\n").toOption.any
      (fun s => s.tracking.minimumStep.isNaN) = true := by
    decide +kernel
  cases hs : Settings.parse "[oracle]\nadjustment_step = nan\n" with
  | error flaw =>
    rw [hs] at h
    cases h
  | ok s =>
    rw [hs] at h
    exact ⟨s, rfl, h⟩

/-! ## A cushion that is no number -/

/-- The peg is at `peg`, the latch is not set, and no profit exceeds the cushion. -/
structure State.Locked (peg : Float) (s : State) : Prop where
  priceScale : s.priceScale = peg
  latch : s.latch = .settled
  cushion : s.profitCushion.isNaN = true

namespace State.Locked

variable {peg : Float} {s : State}

theorem wantsMove_eq (h : s.Locked peg) (virtualPrice profit : Float) :
    s.wantsMove virtualPrice profit = false := by
  refine Bool.eq_false_iff.mpr fun hw => ?_
  obtain ⟨-, -, hlatch | hprofit⟩ := wantsMove_iff.mp hw
  · rw [h.latch] at hlatch
    cases hlatch
  · have hnan := isNaN_add_right profit (isNaN_mul_right 2 h.cushion)
    rw [(lt_iff.mp hprofit).1] at hnan
    cases hnan

theorem advanceOracle (h : s.Locked peg) (now : Int) : (s.advanceOracle now).Locked peg := by
  obtain ⟨oracle, time, ho⟩ := s.advanceOracle_frame now
  rw [ho]
  exact ⟨h.priceScale, h.latch, h.cushion⟩

end State.Locked

/-- An update leaves a locked state locked: it cannot move the peg, and nothing else
sets the latch. -/
theorem Curve.Updates.locked {c : Curve} {s s' : State} {tradePrice supplied : Option Float}
    {now : Int} {move : PegMove} {peg : Float} (h : c.Updates s tradePrice supplied now move s')
    (hs : s.Locked peg) : s'.Locked peg := by
  have ht := hs.advanceOracle now
  cases h with
  | unchanged found stays => exact ⟨ht.priceScale, rfl, ht.cushion⟩
  | moved found wants | discarded found wants =>
    rw [ht.wantsMove_eq] at wants
    cases wants

/-- A market that is opened with such a cushion keeps its peg, whatever happens. -/
theorem Pool.priceScale_run_of_nan {curve : Curve} {tracking : Tracking} {reserves : Reserves}
    {priceScale : Float} {now : Int} {p : Pool}
    (h : bootstrap curve tracking reserves priceScale now = .ok p)
    (hn : tracking.profitCushion.isNaN = true) (ops : List Operation) :
    (p.run ops).2.state.priceScale = priceScale := by
  have hlocked : p.state.Locked priceScale := by
    obtain ⟨-, -, d, -, -, rfl⟩ := bootstrap_eq_ok.mp h
    exact ⟨rfl, rfl, hn⟩
  have step (u : Change) (hu : u.Sound p.curve) (hb : u.before.Locked priceScale) :
      u.after.Locked priceScale := by
    obtain ⟨⟨tradePrice, now, hu⟩, -⟩ := hu
    exact hu.locked ⟨hb.priceScale, hb.latch, hb.cushion⟩
  exact (run_induction hlocked step ops).1.priceScale

end VirtualMarket
