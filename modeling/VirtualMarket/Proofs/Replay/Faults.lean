/-
VirtualMarket.Proofs.Replay.Faults — how a bar of a replay fails.

A bar sizes its trades, executes them, values the maker and measures the depth.
Every pool on its way has the curve that the replay began with, so once the
constants of that curve have passed, none of these can fail for them again.  What
is left are the faults of trading, and among the trades themselves only a sale
can be refused by its bound.
-/
import VirtualMarket.Proofs.Market.Faults
import VirtualMarket.Proofs.Replay.Landing

namespace VirtualMarket

open Outcome

/-! ## Sizing -/

namespace Sizing

variable {s : Sizing} {v : Venue}

/-- A search fails like one of the candidates it tries, or for want of steps. -/
theorem faultsIn_walk {P : Fault → Prop} {reached : Float → Outcome Bool}
    (hr : ∀ size, FaultsIn P (reached size))
    (hx : ∀ size, P (.searchExhausted s.maxSteps size)) (steps : Nat) (size : Float) :
    FaultsIn P (s.walk reached steps size) := by
  induction steps generalizing size with
  | zero => exact .error (hx size)
  | succ steps ih =>
    unfold walk
    extract_lets next
    split
    · rename_i fault h
      exact .error (hr _ fault h)
    · exact .ok _
    · exact ih _

section

variable (hbuy : ∀ size, FaultsIn Fault.OfTrading (v.quotePurchase size))
  (hsell : ∀ size, FaultsIn Fault.OfTrading (v.quoteSale size))

include hbuy in
theorem faultsIn_purchaseReaches (s : Sizing) (target size : Float) :
    FaultsIn Fault.OfTrading (s.purchaseReaches v target size) := by
  unfold purchaseReaches
  split
  · exact .error ⟨id, id⟩
  · refine .bind (hbuy size) fun quote => ?_
    split
    · exact .error ⟨id, id⟩
    · exact .ok _

include hsell in
theorem faultsIn_saleReaches (s : Sizing) (target size : Float) :
    FaultsIn Fault.OfTrading (s.saleReaches v target size) := by
  refine .bind (hsell size) fun quote => ?_
  split
  · exact .error ⟨id, id⟩
  · exact .ok _

include hbuy hsell

/-- At a venue whose quotes have the faults of trading, so has sizing. -/
theorem faultsIn_sizeToTarget (s : Sizing) (target : Float) :
    FaultsIn Fault.OfTrading (s.sizeToTarget v target) := by
  have exhausted (size : Float) : (Fault.searchExhausted s.maxSteps size).OfTrading := ⟨id, id⟩
  unfold sizeToTarget
  split
  · exact .error ⟨id, id⟩
  · split
    · exact faultsIn_walk (faultsIn_purchaseReaches hbuy s target) exhausted _ _
    · split
      · exact .bind (faultsIn_walk (faultsIn_saleReaches hsell s target) exhausted _ _)
          fun size => .ok _
      · exact .ok _

/-- A band that lies between zero and one passes the test of the depth, too. -/
theorem faultsIn_depth (s : Sizing) {band : Float} (hpos : band > 0) (hone : band < 1) :
    FaultsIn Fault.OfTrading (s.depth v band) := by
  have hnot : ¬ band ≥ 1 := fun h => Double.lt_irrefl (Double.lt_of_lt_of_le hone h)
  have hguard : (!(band > 0) || band ≥ 1) = false := by simp [hpos, hnot]
  unfold depth
  rw [hguard]
  refine .bind (faultsIn_sizeToTarget hbuy hsell s _) fun up => ?_
  exact .bind (faultsIn_sizeToTarget hbuy hsell s _) fun down => .ok _

end

end Sizing

/-! ## Trades -/

namespace Replay

variable {r : Replay} {sizing : Sizing} {p q : Pool} {target size : Float} {fault : Fault}

theorem curve_of_execute {execution : Execution} (h : execute p size = .ok (execution, q)) :
    q.curve = p.curve := by
  unfold execute at h
  split at h
  · rw [Pool.buy, Pool.buyAt_eq_trade] at h
    exact Pool.curve_of_trade h
  · rw [Pool.sell, Pool.sellAt_eq_trade] at h
    exact Pool.curve_of_trade h

theorem curve_of_executeAll {sizes : List Float} (h : executeAll p sizes = .ok q) :
    q.curve = p.curve := by
  induction sizes generalizing p with
  | nil =>
    cases h
    rfl
  | cons size rest ih =>
    obtain ⟨next, hnext, h⟩ := Outcome.bind_eq_ok.mp h
    cases he : execute p size with
    | error fault => simp [he, Except.map] at hnext
    | ok executed =>
      obtain rfl : executed.2 = next := by simpa [he, Except.map] using hnext
      exact (ih h).trans (curve_of_execute he)

/-- A sale that was sized at a pool and failed there. -/
def RefusedSale (sizing : Sizing) (p : Pool) (fault : Fault) : Prop :=
  ∃ target size, sizing.sizeToTarget p.venue target = .ok size ∧ size < 0 ∧
    p.sell size.abs 0 = .error fault

/-- The faults of the trades at a pool: none that tests rule out, and bounds refuse
sales only. -/
def TradeFault (sizing : Sizing) (p : Pool) (fault : Fault) : Prop :=
  ¬ fault.RuledOut ∧ (fault.IsSlippage → RefusedSale sizing p fault)

theorem TradeFault.ofTrading (h : fault.OfTrading) : TradeFault sizing p fault :=
  ⟨h.1, fun hs => absurd hs h.2⟩

section

variable (hc : p.curve.guarded = .ok ())

include hc

theorem faultsIn_sizeToTarget_venue (sizing : Sizing) (target : Float) :
    FaultsIn Fault.OfTrading (sizing.sizeToTarget p.venue target) :=
  Sizing.faultsIn_sizeToTarget (fun _ => Curve.faultsIn_quoteInput hc _ _ _ _)
    (fun _ => Curve.faultsIn_quoteOutput hc _ _ _ _) sizing target

theorem faultsIn_dealTo (hs : sizing.validate = .ok ()) (target : Float) :
    FaultsIn (TradeFault sizing p) (dealTo sizing p target) := by
  refine .bind_found (.mono (fun _ => .ofTrading) (faultsIn_sizeToTarget_venue hc sizing target))
    fun size hsize => ?_
  split
  · exact .ok _
  · rename_i hv
    refine .bind ?_ fun _ => .ok _
    unfold execute
    split
    · exact .mono (fun _ => .ofTrading) (Pool.faultsIn_buy hc)
    · rename_i hpos
      have hneg := (Sizing.found_of_sizeToTarget hs hsize).neg_of_not_pos hpos (by simpa using hv)
      exact fun fault h => ⟨Pool.faultsIn_sell hc fault h, fun _ => ⟨target, size, hsize, hneg, h⟩⟩

end

/-- The fault that ends a path is that of a trade at the pool that it leaves. -/
theorem dealTo_of_tradeAlong {targets : List Float} {t t' : Traded}
    (h : tradeAlong sizing targets t = (t', some fault)) :
    ∃ target ∈ targets, dealTo sizing t'.pool target = .error fault := by
  induction targets generalizing t with
  | nil => cases h
  | cons target rest ih =>
    unfold tradeAlong at h
    rw [tradeTo_eq] at h
    cases hd : dealTo sizing t.pool target with
    | error e =>
      rw [hd] at h
      cases h
      exact ⟨target, List.mem_cons_self, hd⟩
    | ok deal =>
      rw [hd] at h
      obtain ⟨target', hmem, hf⟩ := ih h
      exact ⟨target', List.mem_cons_of_mem _ hmem, hf⟩

/-! ## Bars -/

theorem curve_traded (r : Replay) (b : Bar) : (r.traded b).1.pool.curve = b.before.curve :=
  curve_of_executeAll (executeAll_deals r b)

theorem curve_of_mem_barsFrom {index : Nat} {candles : List Candle} {b : Bar}
    (h : b ∈ r.barsFrom index p candles) : b.before.curve = p.curve := by
  induction candles generalizing index p with
  | nil => cases h
  | cons c rest ih =>
    rcases List.mem_cons.mp h with rfl | h
    · rfl
    · exact (ih h).trans (curve_traded r ⟨index, c, p⟩)

theorem faultsIn_rowOf (r : Replay) {t : Traded} (hc : t.pool.curve.guarded = .ok ())
    (hpos : r.plan.depthBand > 0) (hone : r.plan.depthBand < 1) (index : Nat) (c : Candle) :
    FaultsIn Fault.OfTrading (r.rowOf index c t) := by
  refine .bind (Curve.faultsIn_makerValue hc _ _ _) fun maker => ?_
  refine .bind ?_ fun depth => .ok _
  exact Sizing.faultsIn_depth (fun _ => Curve.faultsIn_quoteInput hc _ _ _ _)
    (fun _ => Curve.faultsIn_quoteOutput hc _ _ _ _) r.sizing hpos hone

/-- A bar of a replay with tested constants fails like the trades at the pool that
it leaves. -/
theorem faultsIn_step (r : Replay) (b : Bar) (hc : b.before.curve.guarded = .ok ())
    (hs : r.sizing.validate = .ok ()) (hpos : r.plan.depthBand > 0) (hone : r.plan.depthBand < 1) :
    FaultsIn (TradeFault r.sizing (r.traded b).1.pool) (r.step b) := by
  have hleft : (r.traded b).1.pool.curve.guarded = .ok () := by rwa [curve_traded]
  unfold step
  split
  · rename_i t fault ht
    rw [ht] at hleft ⊢
    obtain ⟨target, -, hd⟩ := dealTo_of_tradeAlong ht
    exact .error (faultsIn_dealTo hleft hs target fault hd)
  · rename_i t ht
    rw [ht] at hleft ⊢
    exact .mono (fun _ => .ofTrading) (faultsIn_rowOf r hleft hpos hone _ _)

end Replay

end VirtualMarket
