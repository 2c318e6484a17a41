/-
VirtualMarket.Proofs.Market.Clock — what moves the oracle price, and when.

An update advances the moving average from what was known before it: the price
noted by an earlier update, the old average and the two times.  The trade that
is being settled has no part in it, and without a later time nothing advances.
So nobody moves the oracle price within an update of his own, nor with a clock
that stands still, and the time of the last change is the latest at which an
operation has succeeded.
-/
import VirtualMarket.Proofs.Market.Journal

namespace VirtualMarket

namespace Entry

variable {e : Entry}

/-- The time of an operation. -/
def time? (e : Entry) : Option Int :=
  e.before.timeOf? e.op

/-- The time of an operation that succeeded. -/
def tick? (e : Entry) : Option Int :=
  match e.answer with
  | .ok _ => e.time?
  | .error _ => none

theorem tick?_eq_some_iff {now : Int} :
    e.tick? = some now ↔ (∃ answer, e.answer = .ok answer) ∧ e.time? = some now := by
  unfold tick?
  cases h : e.answer <;> simp

/-- An operation that succeeds leaves the oracle price advanced to its time,
whatever else it does. -/
theorem oracle_after {now : Int} (h : e.tick? = some now) :
    e.after.state.priceOracle = (e.before.state.advanceOracle now).priceOracle ∧
      e.after.state.lastUpdate = (e.before.state.advanceOracle now).lastUpdate := by
  obtain ⟨⟨answer, ha⟩, ht⟩ := tick?_eq_some_iff.mp h
  cases performs ha with
  | reads mutates =>
    have hn : e.time? = none := Pool.timeOf?_of_reads mutates
    cases hn.symm.trans ht
  | updates mutates time move priced update leaves =>
    cases time.symm.trans ht
    have hu := (Curve.updates_of_update update).oracle
    rw [State.advanceOracle_reserves] at hu
    rwa [leaves]

/-- An operation without a time of success leaves the pool that it found. -/
theorem after_of_tick?_eq_none (h : e.tick? = none) : e.after = e.before := by
  cases ha : e.answer with
  | error fault => exact after_of_error ha
  | ok answer =>
    cases performs ha with
    | reads mutates move leaves => exact leaves
    | updates mutates time =>
      have hs := tick?_eq_some_iff.mpr ⟨⟨answer, ha⟩, time⟩
      cases h.symm.trans hs

/-- The time of the last change, after one operation. -/
theorem lastUpdate_after (e : Entry) :
    e.after.state.lastUpdate = e.tick?.toList.foldl max e.before.state.lastUpdate := by
  cases h : e.tick? with
  | none =>
    rw [after_of_tick?_eq_none h]
    rfl
  | some now =>
    rw [(oracle_after h).2, State.advanceOracle_lastUpdate]
    rfl

/-- The clock of an operation is not ahead of the last change. -/
def Stale (e : Entry) : Prop :=
  ∀ now, e.time? = some now → now ≤ e.before.state.lastUpdate

/-- With a stale clock an operation leaves the oracle price and its time. -/
theorem Stale.oracle_after (h : e.Stale) :
    e.after.state.priceOracle = e.before.state.priceOracle ∧
      e.after.state.lastUpdate = e.before.state.lastUpdate := by
  cases ht : e.tick? with
  | none =>
    rw [after_of_tick?_eq_none ht]
    exact ⟨rfl, rfl⟩
  | some now =>
    have hle := h now (tick?_eq_some_iff.mp ht).2
    have ho := Entry.oracle_after ht
    rwa [State.advanceOracle_of_le hle] at ho

end Entry

/-! ## Runs -/

namespace Pool

theorem oracle_of_stale {p : Pool} {ops : List Operation} (h : ∀ e ∈ p.journal ops, e.Stale) :
    (p.run ops).2.state.priceOracle = p.state.priceOracle ∧
      (p.run ops).2.state.lastUpdate = p.state.lastUpdate := by
  induction ops generalizing p with
  | nil => exact ⟨rfl, rfl⟩
  | cons op rest ih =>
    obtain ⟨ho, ht⟩ := (h ⟨p, op⟩ List.mem_cons_self).oracle_after
    obtain ⟨hro, hrt⟩ := ih fun e he => h e (List.mem_cons_of_mem _ he)
    exact ⟨hro.trans ho, hrt.trans ht⟩

theorem lastUpdate_run (p : Pool) (ops : List Operation) :
    (p.run ops).2.state.lastUpdate =
      ((p.journal ops).filterMap Entry.tick?).foldl max p.state.lastUpdate := by
  induction ops generalizing p with
  | nil => rfl
  | cons op rest ih =>
    have h := (Entry.mk p op).lastUpdate_after
    have hticks : (p.journal (op :: rest)).filterMap Entry.tick? =
        (Entry.mk p op).tick?.toList ++ ((p.apply op).2.journal rest).filterMap Entry.tick? := by
      rw [journal, List.filterMap_cons]
      cases (Entry.mk p op).tick? <;> rfl
    rw [run_cons, ih, hticks, List.foldl_append, ← h]
    rfl

/-- The oracle price cannot be moved within an update of one's own, nor with a
stale clock: operations that succeed at one time leave one oracle price,
whatever they are; a run in which no operation comes later than the last change
leaves the oracle price alone throughout; and in every run the time of the last
change is the latest of the first one and those of all operations that
succeeded. -/
theorem oracle_clock (p : Pool) :
    (∀ (op op' : Operation) (answer answer' : Answer) (now : Int),
        (p.apply op).1 = .ok answer → (p.apply op').1 = .ok answer' →
        p.timeOf? op = some now → p.timeOf? op' = some now →
          (p.apply op).2.state.priceOracle = (p.apply op').2.state.priceOracle ∧
            (p.apply op).2.state.lastUpdate = (p.apply op').2.state.lastUpdate) ∧
      (∀ ops : List Operation, (∀ e ∈ p.journal ops, e.Stale) →
        ∀ first rest, ops = first ++ rest →
          (p.run first).2.state.priceOracle = p.state.priceOracle ∧
            (p.run first).2.state.lastUpdate = p.state.lastUpdate) ∧
      ∀ ops : List Operation, (p.run ops).2.state.lastUpdate =
        ((p.journal ops).filterMap Entry.tick?).foldl max p.state.lastUpdate := by
  refine ⟨fun op op' answer answer' now h h' ht ht' => ?_, fun ops hs first rest he => ?_,
    p.lastUpdate_run⟩
  · obtain ⟨ho, hl⟩ := Entry.oracle_after (e := ⟨p, op⟩) (Entry.tick?_eq_some_iff.mpr ⟨⟨_, h⟩, ht⟩)
    obtain ⟨ho', hl'⟩ := Entry.oracle_after (e := ⟨p, op'⟩) (Entry.tick?_eq_some_iff.mpr ⟨⟨_, h'⟩, ht'⟩)
    exact ⟨ho.trans ho'.symm, hl.trans hl'.symm⟩
  · refine oracle_of_stale fun e h => hs e ?_
    rw [he, journal_append]
    exact List.mem_append_left _ h

/-- Two updates at one time, and a run of them in which the clock goes back. -/
theorem oracle_clock_even :
    let op : Operation := .update (some 1) (some 2000) 0
    let op' : Operation := .update (some 7) (some 2010) 0
    let late : Operation := .update (some 7) (some 2010) (-5)
    (even.apply op).2.state.priceOracle = (even.apply op').2.state.priceOracle ∧
      (even.run [op, late]).2.state.priceOracle = even.state.priceOracle ∧
      (even.run [op, late]).2.state.lastUpdate =
        ((even.journal [op, late]).filterMap Entry.tick?).foldl max even.state.lastUpdate := by
  intro op op' late
  obtain ⟨hnow, hstale, hrun⟩ := oracle_clock even
  obtain ⟨answer, h⟩ := Outcome.isOk_iff.mp (by decide +kernel : (even.apply op).1.isOk = true)
  obtain ⟨answer', h'⟩ := Outcome.isOk_iff.mp (by decide +kernel : (even.apply op').1.isOk = true)
  have hfirst : (Entry.mk even op).Stale := by
    intro now ht
    cases ht
    exact le_rfl
  have hlate : ∀ p : Pool, -5 ≤ p.state.lastUpdate → (Entry.mk p late).Stale := by
    intro p hp now ht
    cases ht
    exact hp
  have hs : ∀ e ∈ even.journal [op, late], e.Stale := by
    rw [journal, journal, journal, List.forall_mem_cons, List.forall_mem_singleton]
    exact ⟨hfirst, hlate _ (by decide +kernel)⟩
  exact ⟨(hnow op op' answer answer' 0 h h' rfl rfl).1,
    (hstale [op, late] hs [op, late] [] (List.append_nil _).symm).1, hrun [op, late]⟩

end Pool

end VirtualMarket
