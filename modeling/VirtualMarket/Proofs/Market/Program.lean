/-
VirtualMarket.Proofs.Market.Program — operations are all or nothing.

A program that fails may leave its state halfway, and an update does: it has
advanced the moving average, noted a price or counted profit when a later stage
fails.  Run on a copy it leaves either the whole update or the state that it
found.  What programs come to is written here as functions that give a new
state only if they succeed; everything else about operations is proved of
these.
-/
import VirtualMarket.Market.Operation
import VirtualMarket.Proofs.Market.Update

namespace VirtualMarket

/-! ## Programs and functions -/

/-- All or nothing: a new state with an answer, or the old state with a fault. -/
def Outcome.orOld {σ α : Type} (r : Outcome (α × σ)) (s : σ) : Outcome α × σ :=
  match r with
  | .ok (a, after) => (.ok a, after)
  | .error fault => (.error fault, s)

namespace Program

variable {σ α β : Type} {x : Program σ α} {f : α → Program σ β} {s t : σ}

/-- The program succeeds as `r` does, or fails as `r` does and then leaves a state for
which `left` holds. -/
def Yields (x : Program σ α) (left : σ → Prop) (s : σ) : Outcome (α × σ) → Prop
  | .ok (a, after) => x.runOn s = (.ok a, after)
  | .error fault => ∃ t, left t ∧ x.runOn s = (.error fault, t)

/-- The program does all that `r` says, or nothing. -/
abbrev Settles (x : Program σ α) (s : σ) (r : Outcome (α × σ)) : Prop :=
  x.Yields (· = s) s r

/-! ### Steps -/

theorem runOn_bind_of_ok {a : α} (h : x.runOn s = (.ok a, t)) :
    (x >>= f).runOn s = (f a).runOn t := by
  change ExceptT.bindCont f (x.runOn s).1 (x.runOn s).2 = _
  rw [h]
  rfl

theorem runOn_bind_of_error {fault : Fault} (h : x.runOn s = (.error fault, t)) :
    (x >>= f).runOn s = (.error fault, t) := by
  change ExceptT.bindCont f (x.runOn s).1 (x.runOn s).2 = _
  rw [h]
  rfl

section

variable {left : σ → Prop} {r r' : Outcome (α × σ)}

/-- A step that reads the state. -/
theorem Yields.get_bind {f : σ → Program σ α} (h : (f s).Yields left s r) :
    Yields (get >>= f) left s r := h

/-- A step that writes to the state. -/
theorem Yields.modify_bind {g : σ → σ} {f : PUnit → Program σ α}
    (h : (f ⟨⟩).Yields left (g s) r) : Yields (modify g >>= f) left s r := h

/-- A step that may fail and writes nothing. -/
theorem Yields.lift_bind {o : Outcome α} {g : α → Outcome (β × σ)} (hl : left s)
    (h : ∀ a, (f a).Yields left s (g a)) : Yields (liftM o >>= f) left s (o >>= g) := by
  cases o with
  | ok a => exact h a
  | error fault => exact ⟨s, hl, rfl⟩

theorem Yields.throw {fault : Fault} (hl : left s) :
    Yields (MonadExcept.throw fault : Program σ α) left s (.error fault) :=
  ⟨s, hl, rfl⟩

theorem Yields.ite {p : Prop} [Decidable p] {y : Program σ α} (hx : x.Yields left s r)
    (hy : y.Yields left s r') : Yields (if p then x else y) left s (if p then r else r') := by
  split
  · exact hx
  · exact hy

/-- An answer made from that of a program. -/
theorem Yields.bind_pure (h : x.Yields left s r) (g : α → β) :
    Yields (x >>= fun a => pure (g a)) left s (r >>= fun (a, after) => .ok (g a, after)) := by
  cases r with
  | ok result => exact runOn_bind_of_ok h
  | error fault =>
    obtain ⟨t, hl, h⟩ := h
    exact ⟨t, hl, runOn_bind_of_error h⟩

/-- On a copy a program settles, whatever it leaves of the copy when it fails. -/
theorem Yields.onCopy (h : x.Yields left s r) : x.onCopy.Settles s r := by
  have hcopy : x.onCopy.runOn s =
      (liftM (x.runOn s).1 >>= fun a => set (x.runOn s).2 >>= fun _ => pure a :
        Program σ α).runOn s := rfl
  cases r with
  | ok result =>
    obtain ⟨a, after⟩ := result
    replace h : x.runOn s = (.ok a, after) := h
    rw [h] at hcopy
    exact hcopy
  | error fault =>
    obtain ⟨t, -, h⟩ := h
    rw [h] at hcopy
    exact ⟨s, rfl, hcopy⟩

end

theorem Settles.runOn_eq {r : Outcome (α × σ)} (h : x.Settles s r) : x.runOn s = r.orOld s := by
  cases r with
  | ok result => exact h
  | error fault =>
    obtain ⟨t, rfl, h⟩ := h
    exact h

/-- A program that settles leaves the old state if it fails. -/
theorem Settles.of_error {r : Outcome (α × σ)} (h : x.Settles s r) {fault : Fault}
    (he : (x.runOn s).1 = .error fault) : (x.runOn s).2 = s := by
  rw [h.runOn_eq] at he ⊢
  cases r with
  | ok result => cases he
  | error fault => rfl

end Program

/-! ## The update -/

namespace State

theorem arm_frame (s : State) (virtualPrice : Float) :
    ∃ latch, s.arm virtualPrice = { s with latch := latch } := by
  unfold arm
  split
  · exact ⟨_, rfl⟩
  · exact ⟨_, rfl⟩

/-- The latch is set just when a move is wanted, where nothing else rules it out. -/
theorem latch_arm_iff (s : State) (virtualPrice : Float)
    (h : s.stepFor s.distance < s.distance ∧ 0 < s.virtualPrice) :
    (s.arm virtualPrice).latch = .pending ↔ s.wantsMove virtualPrice s.profit = true := by
  obtain ⟨hd, hv⟩ := h
  rw [wantsMove_iff]
  unfold arm
  split
  · rename_i harm
    exact iff_of_true rfl ⟨hd, hv, .inr harm.2.1⟩
  · rename_i hno
    refine ⟨fun hl => ⟨hd, hv, .inl hl⟩, ?_⟩
    rintro ⟨-, -, hl | hp⟩
    · exact hl
    · exact not_not.mp fun hl => hno ⟨hl, hp, hd, hv⟩

end State

namespace Curve

open Program

variable (c : Curve)

/-- The end of an update does what is left of it to do. -/
theorem yields_adjust {s : State} {x : Reserves} (hx : s.scaledReserves = x)
    (d virtualPrice profit lastPrice : Float) :
    (c.adjust x d virtualPrice).Yields (fun _ => True)
      (State.arm { s with lastPrice := lastPrice, profit := profit } virtualPrice)
      (if s.wantsMove virtualPrice profit then c.tryMove s d virtualPrice profit lastPrice
        else .ok (.unchanged, s.settle d virtualPrice profit lastPrice)) := by
  subst hx
  obtain ⟨latch, harm⟩ :=
    State.arm_frame { s with lastPrice := lastPrice, profit := profit } virtualPrice
  have hlatch (h : s.stepFor s.distance < s.distance ∧ 0 < s.virtualPrice) :
      latch = .pending ↔ s.wantsMove virtualPrice profit = true := by
    have hl := State.latch_arm_iff { s with lastPrice := lastPrice, profit := profit }
      virtualPrice h
    rwa [harm] at hl
  rw [harm]
  refine .get_bind ?_
  split
  · rename_i hmove
    obtain ⟨hpending, hcan⟩ := hmove
    cases hpending
    rw [if_pos ((hlatch hcan).mp rfl)]
    exact .lift_bind trivial fun moved => .ite rfl rfl
  · rename_i hno
    rw [if_neg]
    · rfl
    · intro hw
      obtain ⟨hd, hv, -⟩ := State.wantsMove_iff.mp hw
      exact hno ⟨(hlatch ⟨hd, hv⟩).mpr hw, hd, hv⟩

/-- An update that is written where the state stands succeeds and fails like the update. -/
theorem yields_revise (s : State) (tradePrice supplied : Option Float) (now : Int) :
    (c.revise tradePrice supplied now).Yields (fun _ => True) s
      (c.update s tradePrice supplied now) := by
  refine .get_bind (.modify_bind (.lift_bind trivial fun d => .get_bind (.lift_bind trivial
    fun lastPrice => .modify_bind (.get_bind (.lift_bind trivial ?_)))))
  rintro ⟨virtualPrice, profit⟩
  have hx : (s.advanceOracle now).scaledReserves = s.scaledReserves := by
    obtain ⟨oracle, time, h⟩ := s.advanceOracle_frame now
    rw [h]
    rfl
  exact .modify_bind (.modify_bind (c.yields_adjust hx d virtualPrice profit lastPrice))

/-- The update is all or nothing. -/
theorem settles_tweak (s : State) (tradePrice supplied : Option Float) (now : Int) :
    (c.tweak tradePrice supplied now).Settles s (c.update s tradePrice supplied now) :=
  (c.yields_revise s tradePrice supplied now).onCopy

end Curve

/-! ## Operations -/

namespace Pool

open Program

/-- The answer to an operation, and the pool that it leaves if it succeeds. -/
def perform (p : Pool) : Operation → Outcome (Answer × Pool)
  | .markPrice => .ok (.number p.markPrice, p)
  | .reserves => .ok (.reserves p.state.reserves, p)
  | .quotePurchase size => do
    let quote ← p.quotePurchase size
    .ok (.quote quote, p)
  | .quoteSale size => do
    let quote ← p.quoteSale size
    .ok (.quote quote, p)
  | .buy size most time => do
    let (execution, after) ← p.buyAt size most (time.getD p.nextTime)
    .ok (.execution execution, after)
  | .sell size least time => do
    let (execution, after) ← p.sellAt size least (time.getD p.nextTime)
    .ok (.execution execution, after)
  | .update tradePrice supplied time => do
    let (peg, after) ← p.update tradePrice supplied time
    .ok (.peg peg, after)
  | .makerValue tokens basis => do
    let value ← p.curve.makerValue p.state tokens basis
    .ok (.maker value, p)
  | .closePosition position => do
    let closing ← p.curve.closePosition position p.state.reserves p.state.invariant
      p.state.priceScale
    .ok (.closing closing, p)
  | .sizeToTarget sizing target => do
    let size ← sizing.sizeToTarget p.venue target
    .ok (.number size, p)
  | .depth sizing band => do
    let depth ← sizing.depth p.venue band
    .ok (.number depth, p)

/-- A trade is completed altogether or not at all. -/
theorem settles_complete (p : Pool) (next : State) (quote : Quote) (price : Float) (now : Int) :
    (complete next quote price now).Settles p (p.commit next quote price now) := by
  refine .get_bind ?_
  rw [(p.curve.settles_tweak next (some price) none now).runOn_eq, commit]
  cases p.curve.update next (some price) none now with
  | ok result => rfl
  | error fault => exact ⟨p, rfl, rfl⟩

theorem settles_executeSale (p : Pool) (size least : Float) (now : Int) :
    (executeSale size least now).Settles p (p.sellAt size least now) :=
  .get_bind (.lift_bind rfl fun quote => .ite (.throw rfl)
    (.get_bind (p.settles_complete _ quote _ now)))

theorem settles_executePurchase (p : Pool) (size most : Float) (now : Int) :
    (executePurchase size most now).Settles p (p.buyAt size most now) :=
  .get_bind (.lift_bind rfl fun quote => .ite (.throw rfl)
    (.get_bind (p.settles_complete _ quote _ now)))

/-- An update of the pool writes to its state what the update has left, also if it failed. -/
theorem settles_tweak (p : Pool) (tradePrice supplied : Option Float) (now : Int) :
    (Pool.tweak tradePrice supplied now).Settles p (p.update tradePrice supplied now) := by
  refine .get_bind ?_
  rw [(p.curve.settles_tweak p.state tradePrice supplied now).runOn_eq, update]
  cases p.curve.update p.state tradePrice supplied now with
  | ok result => rfl
  | error fault => exact ⟨p, rfl, rfl⟩

/-- Every operation is all or nothing. -/
theorem settles_program (p : Pool) (op : Operation) : op.program.Settles p (p.perform op) := by
  cases op with
  | markPrice | reserves => rfl
  | quotePurchase | quoteSale | makerValue | closePosition | sizeToTarget | depth =>
    exact .get_bind (.lift_bind rfl fun _ => rfl)
  | buy size most time =>
    exact .get_bind ((p.settles_executePurchase size most _).bind_pure Answer.execution)
  | sell size least time =>
    exact .get_bind ((p.settles_executeSale size least _).bind_pure Answer.execution)
  | update tradePrice supplied time =>
    exact (p.settles_tweak tradePrice supplied time).bind_pure Answer.peg

theorem apply_eq (p : Pool) (op : Operation) : p.apply op = (p.perform op).orOld p :=
  (p.settles_program op).runOn_eq

end Pool

end VirtualMarket
