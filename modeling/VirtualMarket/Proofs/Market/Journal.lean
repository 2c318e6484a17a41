/-
VirtualMarket.Proofs.Market.Journal — the operations of a run, one by one.

The journal of a run has one entry for each operation, with the pool that it
found; its answer and the pool that it left follow from these.  An entry counts
if its operation is a trade or an update and succeeded.  All others leave the
pool that they found, so the entries that count can be run without them:
nothing about their answers changes, and the last pool is the same.
-/
import VirtualMarket.Proofs.Market.History

namespace VirtualMarket

/-! ## Entries -/

/-- An operation and the pool that it found. -/
structure Entry where
  before : Pool
  op : Operation

namespace Entry

variable {e : Entry}

def answer (e : Entry) : Outcome Answer :=
  (e.before.apply e.op).1

/-- The pool that the operation left. -/
def after (e : Entry) : Pool :=
  (e.before.apply e.op).2

/-- Whether the operation is a trade or an update that succeeded. -/
def counts (e : Entry) : Bool :=
  e.op.mutates && e.answer.isOk

theorem performs {a : Answer} (h : e.answer = .ok a) : e.before.Performs e.op a e.after :=
  Pool.performs_of_apply h

theorem after_of_error {fault : Fault} (h : e.answer = .error fault) : e.after = e.before :=
  Pool.apply_of_error h

theorem after_of_reads (h : e.op.mutates = false) : e.after = e.before := by
  cases ha : e.answer with
  | error fault => exact after_of_error ha
  | ok answer =>
    cases performs ha with
    | reads mutates move leaves => exact leaves
    | updates mutates => cases h.symm.trans mutates

/-- An operation that does not count leaves the pool that it found. -/
theorem after_of_not_counts (h : e.counts = false) : e.after = e.before := by
  rcases Bool.and_eq_false_iff.mp h with hm | ha
  · exact after_of_reads hm
  · obtain ⟨fault, ha⟩ := Outcome.isOk_eq_false_iff.mp ha
    exact after_of_error ha

end Entry

/-! ## Journals -/

namespace Pool

/-- The journal of a run. -/
def journal (p : Pool) : List Operation → List Entry
  | [] => []
  | op :: rest => ⟨p, op⟩ :: (p.apply op).2.journal rest

/-- A journal has the operations of the run in order. -/
theorem journal_op (p : Pool) (ops : List Operation) : (p.journal ops).map Entry.op = ops := by
  induction ops generalizing p with
  | nil => rfl
  | cons op rest ih => exact congrArg (op :: ·) (ih (p.apply op).2)

/-- A journal has the answers of the run in order. -/
theorem journal_answer (p : Pool) (ops : List Operation) :
    (p.journal ops).map Entry.answer = (p.run ops).1 := by
  induction ops generalizing p with
  | nil => rfl
  | cons op rest ih => exact congrArg ((p.apply op).1 :: ·) (ih (p.apply op).2)

theorem journal_append (p : Pool) (first rest : List Operation) :
    p.journal (first ++ rest) = p.journal first ++ (p.run first).2.journal rest := by
  induction first generalizing p with
  | nil => rfl
  | cons op first ih => exact congrArg (⟨p, op⟩ :: ·) (ih (p.apply op).2)

/-- The entries that count give the same answers when they are run alone, and
lead to the same pool. -/
theorem run_counting (p : Pool) (ops : List Operation) :
    p.run (((p.journal ops).filter Entry.counts).map Entry.op) =
      (((p.journal ops).filter Entry.counts).map Entry.answer, (p.run ops).2) := by
  induction ops generalizing p with
  | nil => rfl
  | cons op rest ih =>
    have hrest := ih (p.apply op).2
    rw [journal, run_cons]
    cases hc : (Entry.mk p op).counts with
    | true =>
      rw [List.filter_cons_of_pos hc, List.map_cons, List.map_cons, run]
      dsimp only
      rw [hrest]
      rfl
    | false =>
      -- the operation has left `p` as it was, so the rest runs from there
      have ha : (p.apply op).2 = p := Entry.after_of_not_counts hc
      rw [List.filter_cons_of_neg (by simp [hc])]
      rw [ha] at hrest ⊢
      exact hrest

/-- Failures leave no trace.  In the journal of a run, which pairs its
operations with their answers, every operation that fails leaves the pool as it
found it, and the successful trades and updates alone, without the failures and
the readings among them, give the same answers and the same last pool.  An
update that is called on a bare state leaves it too if it fails, at whichever of
its stages. -/
theorem failures_leave_no_trace (p : Pool) (ops : List Operation) :
    (p.journal ops).map Entry.op = ops ∧ (p.journal ops).map Entry.answer = (p.run ops).1 ∧
      (∀ e ∈ p.journal ops, ∀ fault, e.answer = .error fault → e.after = e.before) ∧
      p.run (((p.journal ops).filter Entry.counts).map Entry.op) =
        (((p.journal ops).filter Entry.counts).map Entry.answer, (p.run ops).2) ∧
      ∀ (c : Curve) (s : State) (tradePrice supplied : Option Float) (now : Int) (fault : Fault),
        ((c.tweak tradePrice supplied now).runOn s).1 = .error fault →
          ((c.tweak tradePrice supplied now).runOn s).2 = s :=
  ⟨p.journal_op ops, p.journal_answer ops, fun _ _ _ h => Entry.after_of_error h,
    p.run_counting ops, fun c s tradePrice supplied now _ h =>
      (c.settles_tweak s tradePrice supplied now).of_error h⟩

/-- The even pool, with a virtual price stored that its reserves do not bear out:
updates detect a loss unless a greater invariant is handed in. -/
def strained : Pool :=
  { even with state := { even.state with virtualPrice := 2 } }

/-- A sale that is rolled back by a loss, after its reserves and the moving
average were written to its copy; an update whose probe fails, a reading, and an
update that counts.  A failing update leaves the copy it works on halfway. -/
theorem failures_leave_no_trace_strained :
    let sale : Operation := .sell 1 0 (some 600)
    let probe : Operation := .update none (some 1e10) 600
    let ops : List Operation := [sale, probe, .markPrice, .update (some 1) (some 5000) 0]
    (strained.journal ops).map Entry.counts = [false, false, false, true] ∧
      (∃ previous current,
        (Entry.mk strained sale).answer = .error (.lossDetected previous current)) ∧
      (Entry.mk strained sale).after = strained ∧
      strained.run (((strained.journal ops).filter Entry.counts).map Entry.op) =
        (((strained.journal ops).filter Entry.counts).map Entry.answer, (strained.run ops).2) ∧
      ((strained.curve.revise none (some 1e10) 600).runOn strained.state).2.lastUpdate = 600 ∧
      ((strained.curve.tweak none (some 1e10) 600).runOn strained.state).2 = strained.state := by
  intro sale probe ops
  obtain ⟨-, -, hfail, hrun, htweak⟩ := failures_leave_no_trace strained ops
  have hloss : (match (Entry.mk strained sale).answer with
      | .error (.lossDetected ..) => true
      | _ => false) = true := by decide +kernel
  have hsale : ∃ previous current,
      (Entry.mk strained sale).answer = .error (.lossDetected previous current) := by
    split at hloss
    · rename_i previous current h
      exact ⟨previous, current, h⟩
    · cases hloss
  obtain ⟨previous, current, h⟩ := hsale
  have hprobe : ((strained.curve.tweak none (some 1e10) 600).runOn strained.state).1.isOk = false := by
    decide +kernel
  obtain ⟨fault, hfault⟩ := Outcome.isOk_eq_false_iff.mp hprobe
  exact ⟨by decide +kernel, ⟨previous, current, h⟩, hfail _ List.mem_cons_self _ h, hrun,
    by decide +kernel, htweak _ _ _ _ _ fault hfault⟩

end Pool

end VirtualMarket
