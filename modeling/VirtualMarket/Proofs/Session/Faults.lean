/-
VirtualMarket.Proofs.Session.Faults — what tested settings rule out.

Settings are tested section by section before anyone sees them, and every part of
a session tests its own share of them again: the pool its curve and its tracking,
the solvers the constants, the depth its band.  The later tests use the bands of
the first, so after it they pass.
-/
import VirtualMarket.Proofs.Market.Validity
import VirtualMarket.Proofs.Replay.Faults
import VirtualMarket.Session.Basic

namespace VirtualMarket

open Outcome

/-! ## Settings -/

theorem ReplayPlan.validate_eq_ok {p : ReplayPlan} :
    p.validate = .ok () ↔ (0 < p.makerShare ∧ p.makerShare ≤ 1) ∧
      (0 < p.depthBand ∧ p.depthBand < 1) ∧ 0 < p.barsPerDay := by
  unfold validate
  split
  · rename_i h
    exact iff_of_false nofun fun ⟨hm, _⟩ => by simp [hm] at h
  rename_i hm
  split
  · rename_i h
    exact iff_of_false nofun fun ⟨_, hd, _⟩ => by simp [hd] at h
  rename_i hd
  split
  · rename_i h
    exact iff_of_false nofun fun ⟨_, _, hb⟩ => by simp [hb] at h
  · rename_i hb
    exact iff_of_true rfl ⟨by simpa using hm, by simpa using hd, by simpa using hb⟩

theorem Seed.validate_eq_ok {s : Seed} :
    s.validate = .ok () ↔ 0 < s.quoteBalance ∧ 0 < s.baseBalance ∧ 0 < s.priceScale := by
  unfold validate
  split
  · rename_i h
    exact iff_of_true rfl (by simpa [and_assoc] using h)
  · rename_i h
    exact iff_of_false nofun fun hs => h (by simp [hs])

theorem ReplayPlan.depthBand_of_validate {p : ReplayPlan} (h : p.validate = .ok ()) :
    p.depthBand > 0 ∧ p.depthBand < 1 :=
  (validate_eq_ok.mp h).2.1

namespace Settings

variable {s : Settings}

/-- Settings pass their test if every section passes its own. -/
theorem validate_eq_ok :
    s.validate = .ok () ↔ s.curve.validate = .ok () ∧ s.tracking.validate = .ok () ∧
      s.sizing.validate = .ok () ∧ s.plan.validate = .ok () ∧ s.seed.validate = .ok () := by
  have step (x : Except SettingsFlaw Unit) (rest : Unit → Except SettingsFlaw Unit) :
      x >>= rest = .ok () ↔ x = .ok () ∧ rest () = .ok () := by
    cases x <;> simp [bind, Except.bind]
  unfold validate
  rw [step, step, step, step, mapError_eq_ok, mapError_eq_ok, mapError_eq_ok]

/-- Settings that a user has got: from a text, from files that start with a named
one, or from wherever settings are looked for. -/
inductive Obtained : Settings → Prop where
  | parsed {s : Settings} (text : String) (h : parse text = .ok s) : Obtained s
  | loadedFrom {s : Settings} (files : Files) (vars : Variables) (base : Path)
      (environment : Option String) (h : loadFrom files vars base environment = .ok s) : Obtained s
  | loaded {s : Settings} (files : Files) (vars : Variables) (path environment : Option String)
      (h : load files vars path environment = .ok s) : Obtained s

theorem validate_of_ofTree {tree : Tree} (h : ofTree tree = .ok s) : s.validate = .ok () := by
  unfold ofTree at h
  split at h
  · cases h
  · rename_i s' _
    cases hv : s'.validate with
    | error flaw => simp [hv, bind, Except.bind] at h
    | ok =>
      obtain rfl : s' = s := by simpa [hv, bind, Except.bind] using h
      exact hv

theorem validate_of_loadFrom {files : Files} {vars : Variables} {base : Path}
    {environment : Option String} (h : loadFrom files vars base environment = .ok s) :
    s.validate = .ok () := by
  unfold loadFrom at h
  split at h
  · cases h
  · exact validate_of_ofTree h

/-- Nobody gets settings that have not passed their test. -/
theorem Obtained.validate (h : s.Obtained) : s.validate = .ok () := by
  cases h with
  | parsed text h =>
    unfold parse at h
    split at h
    · cases h
    · exact validate_of_ofTree h
  | loadedFrom files vars base environment h => exact validate_of_loadFrom h
  | loaded files vars path environment h =>
    unfold load at h
    split at h
    · exact validate_of_loadFrom h
    · split at h
      · exact validate_of_loadFrom h
      · cases hv : ({} : Settings).validate with
        | error flaw => simp [hv, bind, Except.bind] at h
        | ok =>
          obtain rfl : ({} : Settings) = s := by simpa [hv, bind, Except.bind] using h
          exact hv

end Settings

/-! ## Snapshots -/

/-- A snapshot or a state that is refused. -/
def Fault.IsSnapshot : Fault → Prop
  | .invalidSnapshot _ => True
  | _ => False

theorem Fault.IsSnapshot.exists_eq {fault : Fault} (h : fault.IsSnapshot) :
    ∃ flaw, fault = .invalidSnapshot flaw := by
  cases fault with
  | invalidSnapshot flaw => exact ⟨flaw, rfl⟩
  | _ => cases h

theorem FixedPoint.faultsIn_decode (field raw : String) (decimals : Nat) :
    FaultsIn Fault.IsSnapshot (decode field raw decimals) := by
  unfold decode
  split
  · exact .error trivial
  · split_ifs
    · exact .error trivial
    · exact .error trivial
    · exact .error trivial
    · exact .ok _

theorem RawSnapshot.faultsIn_decode (raw : RawSnapshot) : FaultsIn Fault.IsSnapshot raw.decode := by
  unfold RawSnapshot.decode
  repeat refine .bind (FixedPoint.faultsIn_decode _ _ _) fun _ => ?_
  exact .ok _

theorem State.faultsIn_validate (s : State) : FaultsIn Fault.IsSnapshot s.validate := by
  unfold State.validate
  split
  · exact .error trivial
  · exact .ok ()

/-! ## Pools -/

namespace Pool

variable {curve : Curve} {tracking : Tracking} {p : Pool}

theorem curve_of_ofState {state : State} (h : ofState curve tracking state = .ok p) :
    p.curve = curve := by
  obtain ⟨-, -, -, rfl⟩ := ofState_eq_ok.mp h
  rfl

/-- With tested settings a pool is refused for its state only. -/
theorem faultsIn_ofState (hc : curve.validate = .ok ()) (ht : tracking.validate = .ok ())
    (state : State) : FaultsIn Fault.IsSnapshot (ofState curve tracking state) :=
  .bind (hc ▸ .ok ()) fun _ => .bind (ht ▸ .ok ()) fun _ =>
    .bind state.faultsIn_validate fun _ => .ok _

end Pool

namespace Session

variable {s : Settings} {raw : Option RawSnapshot} {p : Pool}

theorem curve_of_buildPool (h : buildPool s raw = .ok p) : p.curve = s.curve := by
  cases raw with
  | some raw =>
    obtain ⟨state, -, h⟩ := Outcome.bind_eq_ok.mp (mapError_eq_ok.mp h)
    exact Pool.curve_of_ofState h
  | none =>
    obtain ⟨-, -, h⟩ := Outcome.bind_eq_ok.mp (mapError_eq_ok.mp h)
    obtain ⟨d, -, h⟩ := Outcome.bind_eq_ok.mp h
    exact Pool.curve_of_ofState h

/-- The faults of a first deposit: those of its state, or of the search for its
invariant. -/
theorem faultsIn_bootstrap (hs : s.validate = .ok ()) :
    FaultsIn (fun fault => fault.IsSnapshot ∨ fault.OfTrading)
      (Pool.bootstrap s.curve s.tracking s.seed.reserves s.seed.priceScale s.seed.startTime) := by
  obtain ⟨hc, ht, -⟩ := Settings.validate_eq_ok.mp hs
  refine .bind (hc ▸ .ok ()) fun _ => ?_
  refine .bind (.mono (fun _ => .inr)
    (Curve.faultsIn_invariant_tested (Curve.guarded_of_validate hc) _)) fun d => ?_
  exact .mono (fun _ => .inl) (Pool.faultsIn_ofState hc ht _)

/-- Settings that a user has got rule out whole kinds of faults.  From a snapshot
they give a pool, or the snapshot is invalid; from the deposit they give a pool, or
it fails for something else than the settings of the market.  And whatever pool
they give, no bar of any history fails with a fault that tests rule out; a bar that
is refused by a bound was refused a sale, by the pool that it leaves. -/
theorem tested_settings_rule_out (hs : s.Obtained) :
    (∀ raw, (∃ p, buildPool s (some raw) = .ok p) ∨
        ∃ flaw, buildPool s (some raw) = .error (.snapshotPool (.invalidSnapshot flaw))) ∧
      (∀ failure, buildPool s none = .error failure →
        ∃ fault, failure = .seedPool fault ∧ (∀ flaw, fault ≠ .invalidParameter flaw) ∧
          ∀ value, fault ≠ .unsafeParameter .amplification value ∧
            fault ≠ .unsafeParameter .gamma value) ∧
      ∀ raw p, buildPool s raw = .ok p → ∀ candles,
        let r := Replay.new p s.sizing s.plan
        ∀ b ∈ r.bars candles, ∀ fault, r.step b = .error fault →
          ¬ fault.RuledOut ∧
            (fault.IsSlippage → Replay.RefusedSale s.sizing (r.traded b).1.pool fault) := by
  have hv := hs.validate
  obtain ⟨hc, ht, hsizing, hplan, -⟩ := Settings.validate_eq_ok.mp hv
  refine ⟨fun raw => ?_, fun failure h => ?_, ?_⟩
  · have hfaults : FaultsIn Fault.IsSnapshot (Pool.ofSnapshot s.curve s.tracking raw) :=
      .bind raw.faultsIn_decode fun _ => Pool.faultsIn_ofState hc ht _
    cases hb : Pool.ofSnapshot s.curve s.tracking raw with
    | ok p => exact .inl ⟨p, mapError_eq_ok.mpr hb⟩
    | error fault =>
      obtain ⟨flaw, rfl⟩ := (hfaults fault hb).exists_eq
      exact .inr ⟨flaw, mapError_eq_error.mpr ⟨_, hb, rfl⟩⟩
  · obtain ⟨fault, hb, rfl⟩ := mapError_eq_error.mp h
    refine ⟨fault, rfl, ?_⟩
    rcases faultsIn_bootstrap hv fault hb with hsnapshot | htrading
    · obtain ⟨flaw, rfl⟩ := hsnapshot.exists_eq
      exact ⟨nofun, fun _ => ⟨nofun, nofun⟩⟩
    · refine ⟨?_, fun value => ⟨?_, ?_⟩⟩
      · rintro flaw rfl
        exact htrading.1 trivial
      · rintro rfl
        exact htrading.1 (.inl rfl)
      · rintro rfl
        exact htrading.1 (.inr rfl)
  · intro raw p hp candles r b hb fault hf
    have hcurve : b.before.curve = s.curve :=
      (Replay.curve_of_mem_barsFrom hb).trans (curve_of_buildPool hp)
    have hguarded : b.before.curve.guarded = .ok () := by
      rw [hcurve]
      exact Curve.guarded_of_validate hc
    obtain ⟨hpos, hone⟩ := ReplayPlan.depthBand_of_validate hplan
    exact Replay.faultsIn_step r b hguarded hsizing hpos hone fault hf

/-- The defaults are tested as well.  Their deposit gives a pool, and a bar that asks
it for a price of zero fails, but not for its settings. -/
theorem tested_settings_rule_out_defaults :
    Settings.Obtained {} ∧ ∃ p, buildPool {} none = .ok p ∧
      ∃ b ∈ (Replay.new p {} {}).bars [⟨0, 0, 0, 0, 0⟩], ∃ fault,
        (Replay.new p {} {}).step b = .error fault ∧ ¬ fault.RuledOut := by
  have hs : Settings.Obtained {} := .loaded {} [] none none rfl
  have hbuilt : (buildPool {} none).toOption.isSome = true := by decide +kernel
  obtain ⟨p, hp⟩ : ∃ p, buildPool {} none = .ok p := by
    cases h : buildPool {} none with
    | ok p => exact ⟨p, rfl⟩
    | error failure => simp [h, Except.toOption] at hbuilt
  have hmem : (⟨0, ⟨0, 0, 0, 0, 0⟩, p⟩ : Replay.Bar) ∈
      (Replay.new p {} {}).bars [⟨0, 0, 0, 0, 0⟩] := List.mem_cons_self
  have hfails : (Replay.new p {} {}).step ⟨0, ⟨0, 0, 0, 0, 0⟩, p⟩ =
      .error (.nonPositiveAmount 0) := by
    simp [Replay.step, Replay.traded, Replay.new, Replay.withMaker, Candle.targets,
      Double.lt_irrefl, Replay.tradeAlong, Replay.tradeTo, Sizing.sizeToTarget, bind, Except.bind]
  obtain ⟨-, -, hbars⟩ := tested_settings_rule_out hs
  exact ⟨hs, p, hp, _, hmem, _, hfails, (hbars none p hp _ _ hmem _ hfails).1⟩

end Session

end VirtualMarket
