/-
VirtualMarket.Proofs.Market.Ledger — executions account for the reserves.

A pool keeps no list of its trades; what it has is the reserves.  This module
says that the answers given to a run account for them to the last bit: posted
one after another to the first reserves, they give the last.  A move of the
peg, which works on scaled reserves of its own, leaves no mark.  Nor does any
operation touch the terms of the market, or note another price than the one it
reports.
-/
import VirtualMarket.Proofs.Market.Journal

namespace VirtualMarket

/-! ## Terms -/

/-- Two pools have the same terms: constants of the curve, tracking policy, and
what a state holds of them. -/
structure Pool.SameTerms (p q : Pool) : Prop where
  curve : q.curve = p.curve
  tracking : q.tracking = p.tracking
  totalSupply : q.state.totalSupply = p.state.totalSupply
  halfLife : q.state.halfLife = p.state.halfLife
  minimumStep : q.state.minimumStep = p.state.minimumStep
  profitCushion : q.state.profitCushion = p.state.profitCushion

namespace Pool.SameTerms

variable {p q r : Pool}

protected theorem refl (p : Pool) : p.SameTerms p :=
  ⟨rfl, rfl, rfl, rfl, rfl, rfl⟩

protected theorem trans (h : p.SameTerms q) (h' : q.SameTerms r) : p.SameTerms r :=
  ⟨h'.curve.trans h.curve, h'.tracking.trans h.tracking, h'.totalSupply.trans h.totalSupply,
    h'.halfLife.trans h.halfLife, h'.minimumStep.trans h.minimumStep,
    h'.profitCushion.trans h.profitCushion⟩

/-- An update of a pool with any reserves keeps its terms. -/
theorem of_updates {reserves : Reserves} {tradePrice supplied : Option Float} {now : Int}
    {move : PegMove} {s : State}
    (h : p.curve.Updates { p.state with reserves := reserves } tradePrice supplied now move s) :
    p.SameTerms { p with state := s } := by
  obtain ⟨oracle, time, ho⟩ := State.advanceOracle_frame { p.state with reserves := reserves } now
  cases h <;> rw [ho] <;> exact ⟨rfl, rfl, rfl, rfl, rfl, rfl⟩

end Pool.SameTerms

/-! ## One entry -/

/-- Only what trades is posted. -/
theorem Operation.post_of_size? {op : Operation} (h : op.size? = none) (answer : Answer)
    (r : Reserves) : op.post answer r = r := by
  cases op with
  | buy | sell => cases h
  | _ => rfl

theorem Operation.price?_of_size? {op : Operation} {size : Float} (h : op.size? = some size)
    (execution : Execution) : op.price? (.execution execution) = some execution.price := by
  cases op with
  | buy | sell => rfl
  | _ => cases h

namespace Entry

variable {e : Entry}

/-- Posts an entry to the reserves: an execution among the answers changes
them, and nothing else does. -/
def post (r : Reserves) (e : Entry) : Reserves :=
  match e.answer with
  | .ok answer => e.op.post answer r
  | .error _ => r

/-- An update has nothing to post, whatever its answer. -/
theorem post_of_size? (h : e.op.size? = none) (r : Reserves) : post r e = r := by
  unfold post
  split
  · exact Operation.post_of_size? h _ r
  · rfl

/-- An operation exchanges the reserves that its entry posts, and keeps the
terms. -/
theorem after_reserves (e : Entry) :
    e.after.state.reserves = post e.before.state.reserves e ∧ e.before.SameTerms e.after := by
  unfold post
  cases ha : e.answer with
  | error fault =>
    rw [after_of_error ha]
    exact ⟨rfl, .refl _⟩
  | ok answer =>
    cases performs ha with
    | reads mutates move leaves =>
      rw [leaves]
      exact ⟨(Operation.post_of_size? (Operation.size?_of_reads mutates) answer _).symm, .refl _⟩
    | updates mutates time move priced update leaves =>
      have hu := Curve.updates_of_update update
      rw [leaves]
      exact ⟨hu.reserves, .of_updates hu⟩

/-- An execution reports its amount over its size as its price, and the pool
notes that price if it is positive. -/
theorem noted {execution : Execution} (h : e.answer = .ok (.execution execution)) :
    ∃ size, e.op.size? = some size ∧ execution.price = execution.amount / size ∧
      (0 < execution.price → e.after.state.lastPrice = execution.price) := by
  cases performs h with
  | reads mutates move => cases move
  | updates mutates time move priced update leaves =>
    obtain ⟨size, hs, hprice⟩ := priced execution rfl
    rw [Operation.price?_of_size? hs] at update
    rw [leaves]
    exact ⟨size, hs, hprice, (Curve.updates_of_update update).lastPrice⟩

end Entry

/-! ## Runs -/

namespace Pool

theorem reserves_run (p : Pool) (ops : List Operation) :
    (p.run ops).2.state.reserves = (p.journal ops).foldl Entry.post p.state.reserves := by
  induction ops generalizing p with
  | nil => rfl
  | cons op rest ih =>
    rw [run_cons, ih, journal, List.foldl_cons, ← (Entry.mk p op).after_reserves.1]
    rfl

theorem sameTerms_run (p : Pool) (ops : List Operation) : p.SameTerms (p.run ops).2 := by
  induction ops generalizing p with
  | nil => exact .refl p
  | cons op rest ih => exact (Entry.mk p op).after_reserves.2.trans (ih _)

/-- The executions that a run reports account for all of its reserves: posted
in order to the first reserves they give the last.  The terms of the market
stay as they are, and every execution leaves the positive price that it reports
as the last price. -/
theorem executions_account (p : Pool) (ops : List Operation) :
    (p.run ops).2.state.reserves = (p.journal ops).foldl Entry.post p.state.reserves ∧
      p.SameTerms (p.run ops).2 ∧
      ∀ e ∈ p.journal ops, ∀ execution, e.answer = .ok (.execution execution) →
        ∃ size, e.op.size? = some size ∧ execution.price = execution.amount / size ∧
          (0 < execution.price → e.after.state.lastPrice = execution.price) :=
  ⟨p.reserves_run ops, p.sameTerms_run ops, fun _ _ _ h => Entry.noted h⟩

/-- A sale and an update: the sale accounts for the reserves. -/
theorem executions_account_even :
    let ops : List Operation := [.sell 1 0 (some 0), .update none (some 2000) 0]
    ∃ execution : Execution, (even.run ops).2.state.reserves = ⟨1000 - execution.amount, 1000 + 1⟩ ∧
      (even.run ops).2.state.totalSupply = 1000 ∧ execution.price = execution.amount / 1 ∧
      (Entry.mk even (.sell 1 0 (some 0))).after.state.lastPrice = execution.price := by
  intro ops
  obtain ⟨hr, ht, hn⟩ := executions_account even ops
  have h : (Entry.mk even (.sell 1 0 (some 0))).answer.toOption.any (fun answer =>
      ((Operation.sell 1 0 (some 0)).price? answer).any (0 < ·)) = true := by
    decide +kernel
  cases he : (Entry.mk even (.sell 1 0 (some 0))).answer with
  | error fault =>
    rw [he] at h
    cases h
  | ok answer =>
    rw [he] at h
    cases answer with
    | execution execution =>
      obtain ⟨size, hs, hprice, hlast⟩ := hn _ List.mem_cons_self execution he
      cases hs
      have hpost : Entry.post even.state.reserves ⟨even, .sell 1 0 (some 0)⟩
          = ⟨1000 - execution.amount, 1000 + 1⟩ := by
        rw [Entry.post, he]
        rfl
      have hpos : 0 < execution.price := of_decide_eq_true h
      refine ⟨execution, ?_, ht.totalSupply, hprice, hlast hpos⟩
      rw [hr, journal, List.foldl_cons, hpost, journal, List.foldl_cons,
        Entry.post_of_size? rfl, journal, List.foldl_nil]
    | number | reserves | quote | peg | maker | closing => cases h

end Pool

end VirtualMarket
