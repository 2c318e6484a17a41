/-
VirtualMarket.Proofs.Account.Share — which withdrawals are refused, and what of a
share stays open.

Three withdrawals are impossible: of less than nothing, against a basis without
tokens, and of more tokens than there are.  The guards are written so that a NaN
is less than nothing, and that a NaN basis has no tokens.  All else gives a
share, and the notional of a share is either realized or open, never both in
part: what stays open is not negative, and without a position it is not positive
either.  A flat share is therefore worth what was realized, which is no loss.
-/
import VirtualMarket.Proofs.Account.Maker

namespace VirtualMarket

open Double

variable {s : State} {tokens size n : Float} {b : Basis} {share : Share}

/-! ## Settled notionals -/

/-- How the notional behind a position of a given size may be split into a part
that is realized and one that remains open. -/
structure Settled (size realized remaining : Float) : Prop where
  /-- Nothing negative stays open. -/
  notNegative : ¬ remaining < 0
  /-- Nothing positive stays open without a position. -/
  backed : (size == 0) = true → ¬ 0 < remaining
  /-- Nothing stays open beside a part that is realized. -/
  once : (realized == 0) = false → remaining = 0

/-- Nothing is realized, and nothing is open. -/
theorem Settled.none (size : Float) : Settled size 0 0 where
  notNegative := Double.lt_irrefl
  backed _ := Double.lt_irrefl
  once _ := rfl

theorem settled_settleNotional (size n : Float) :
    Settled size (settleNotional size n).1 (settleNotional size n).2 := by
  by_cases hn : n < 0
  · have hremaining : (settleNotional size n).2 = 0 := by simp [settleNotional, hn]
    rw [hremaining]
    exact ⟨Double.lt_irrefl, fun _ => Double.lt_irrefl, fun _ => rfl⟩
  · by_cases hfees : 0 < n ∧ (size == 0) = true
    · have hsettle : settleNotional size n = (n, 0) := by
        simp [settleNotional, hn, hfees.1, hfees.2]
      rw [hsettle]
      exact ⟨Double.lt_irrefl, fun _ => Double.lt_irrefl, fun _ => rfl⟩
    · have hsettle : settleNotional size n = (0, n) := by
        simp only [settleNotional, if_neg hn]
        rw [if_neg (by simpa using hfees)]
      have hzero : ((0 : Float) == 0) = true := rfl
      rw [hsettle]
      exact ⟨hn, fun hs hpos => hfees ⟨hpos, hs⟩, fun h => absurd (hzero.symm.trans h) (by decide)⟩

/-- Of a flat share nothing is realized, or fees are. -/
theorem settleNotional_flat_cases (hs : (size == 0) = true) (n : Float) :
    (settleNotional size n).1 = 0 ∨ 0 < (settleNotional size n).1 := by
  have hlong : ¬ 0 < size := fun h => Double.not_beq_of_lt (.inr h) hs
  have hshort : ¬ size < 0 := fun h => Double.not_beq_of_lt (.inl h) hs
  by_cases hn : n < 0
  · exact .inl (by simp [settleNotional, hn, hlong, hshort])
  · by_cases hpos : 0 < n
    · refine .inr ?_
      have hsettle : settleNotional size n = (n, 0) := by simp [settleNotional, hn, hpos, hs]
      rwa [hsettle]
    · exact .inl (by simp [settleNotional, hn, hpos])

/-! ## Refusals -/

/-- The withdrawals that are impossible, each with its fault.  What is wrong with
the amount goes before what is wrong with the basis, and this before the supply. -/
inductive State.Refuses (s : State) (tokens : Float) (b : Basis) : Fault → Prop where
  | negative (amount : ¬ 0 ≤ tokens) : Refuses s tokens b (.nonPositiveAmount tokens)
  | unminted (amount : 0 < tokens) (basis : ¬ 0 < b.tokens) :
      Refuses s tokens b (.nonPositiveAmount b.tokens)
  | beyond (amount : 0 < tokens) (basis : 0 < b.tokens) (supply : s.totalSupply < tokens) :
      Refuses s tokens b (.insufficientLiquidity tokens s.totalSupply)

/-- The share of no tokens. -/
def State.flatShare (s : State) : Share :=
  ⟨⟨0, 0⟩, 0, s.invariant, s.reserves⟩

namespace State

theorem makerShare_of_negative (h : ¬ 0 ≤ tokens) :
    s.makerShare tokens b = .error (.nonPositiveAmount tokens) :=
  if_pos (by simpa using h)

theorem makerShare_of_zero (h : (tokens == 0) = true) :
    s.makerShare tokens b = .ok s.flatShare := by
  have hle : 0 ≤ tokens := Double.le_iff_beq_or_lt.mpr (.inl h)
  rw [makerShare, if_neg (by simpa using hle), if_pos h]
  rfl

theorem makerShare_of_pos (h : 0 < tokens) :
    s.makerShare tokens b =
      if 0 < b.tokens then
        if s.totalSupply < tokens then .error (.insufficientLiquidity tokens s.totalSupply)
        else .ok (s.withdrawTokens tokens b)
      else .error (.nonPositiveAmount b.tokens) := by
  have hle : 0 ≤ tokens := Double.le_of_lt h
  rw [makerShare, if_neg (by simpa using hle), if_neg (Double.not_beq_of_lt (.inr h))]
  by_cases hb : 0 < b.tokens <;> simp [hb]

/-- A withdrawal is refused if it is impossible, and for that reason. -/
theorem makerShare_eq_error {fault : Fault} :
    s.makerShare tokens b = .error fault ↔ s.Refuses tokens b fault := by
  by_cases hle : 0 ≤ tokens
  · rcases Double.le_iff_beq_or_lt.mp hle with hzero | hpos
    · rw [makerShare_of_zero hzero]
      refine iff_of_false nofun ?_
      rintro (h | ⟨h, -⟩ | ⟨h, -, -⟩)
      · exact h hle
      · exact Double.not_beq_of_lt (.inr h) hzero
      · exact Double.not_beq_of_lt (.inr h) hzero
    · rw [makerShare_of_pos hpos]
      constructor
      · intro h
        split_ifs at h with hb hs <;> cases h
        · exact .beyond hpos hb hs
        · exact .unminted hpos hb
      · rintro (h | ⟨-, hb⟩ | ⟨-, hb, hs⟩)
        · exact absurd hle h
        · rw [if_neg hb]
        · rw [if_pos hb, if_pos hs]
  · rw [makerShare_of_negative hle]
    constructor
    · rintro ⟨⟩
      exact .negative hle
    · rintro (h | ⟨h, -⟩ | ⟨h, -, -⟩)
      · rfl
      · exact absurd (Double.le_of_lt h) hle
      · exact absurd (Double.le_of_lt h) hle

/-- A share is flat, or what was withdrawn for some tokens. -/
theorem makerShare_cases (h : s.makerShare tokens b = .ok share) :
    share = s.flatShare ∨ share = s.withdrawTokens tokens b := by
  by_cases hle : 0 ≤ tokens
  · rcases Double.le_iff_beq_or_lt.mp hle with hzero | hpos
    · rw [makerShare_of_zero hzero] at h
      exact .inl (Except.ok.inj h).symm
    · rw [makerShare_of_pos hpos] at h
      split_ifs at h
      exact .inr (Except.ok.inj h).symm
  · rw [makerShare_of_negative hle] at h
    cases h

/-- The notional of every share is settled. -/
theorem settled_of_makerShare (h : s.makerShare tokens b = .ok share) :
    Settled share.position.size share.realized share.position.openNotional := by
  rcases makerShare_cases h with rfl | rfl
  · exact .none 0
  · exact settled_settleNotional _ _

/-- Of a flat share nothing is realized, or fees are. -/
theorem realized_of_flat (h : s.makerShare tokens b = .ok share)
    (hs : (share.position.size == 0) = true) : share.realized = 0 ∨ 0 < share.realized := by
  rcases makerShare_cases h with rfl | rfl
  · exact .inl rfl
  · exact settleNotional_flat_cases hs _

end State

/-! ## Values -/

/-- Nothing is added to what was realized of a flat share. -/
theorem Curve.makerValue_of_flat {c : Curve} {v : MakerValue}
    (h : c.makerValue s tokens b = .ok v) (hv : (v.position.size == 0) = true) :
    ∃ share, s.makerShare tokens b = .ok share ∧ v.position = share.position ∧
      v.unrealized = share.realized ∧ ¬ v.unrealized < 0 := by
  obtain ⟨share, hshare, h⟩ := Outcome.bind_eq_ok.mp h
  obtain ⟨closing, hclose, h⟩ := Outcome.bind_eq_ok.mp h
  cases h
  refine ⟨share, hshare, rfl, ?_⟩
  change closing.unrealized + share.realized = share.realized ∧
    ¬ closing.unrealized + share.realized < 0
  rw [closing_of_flat hclose hv]
  rcases State.realized_of_flat hshare hv with h0 | hpos
  · rw [h0]
    exact ⟨rfl, Double.lt_irrefl⟩
  · have hsum : 0 + share.realized = share.realized := by
      rw [Double.add_comm]
      exact Double.add_zero (view_ne_zero hpos _)
    rw [hsum]
    exact ⟨rfl, Double.lt_asymm hpos⟩

/-- Whatever is asked for: a withdrawal is refused exactly if it is impossible; no
tokens give a flat share and leave the pool as it is; the notional of every share
is settled; and the value of a flat share is what was realized of it, no loss. -/
theorem withdrawals_settle (s : State) (tokens : Float) (b : Basis) :
    (∀ fault, s.makerShare tokens b = .error fault ↔ s.Refuses tokens b fault) ∧
    ((tokens == 0) = true → s.makerShare tokens b = .ok ⟨⟨0, 0⟩, 0, s.invariant, s.reserves⟩) ∧
    (∀ share, s.makerShare tokens b = .ok share →
      Settled share.position.size share.realized share.position.openNotional) ∧
    ∀ (c : Curve) (v : MakerValue), c.makerValue s tokens b = .ok v →
      (v.position.size == 0) = true →
        ∃ share, s.makerShare tokens b = .ok share ∧ v.position = share.position ∧
          v.unrealized = share.realized ∧ ¬ v.unrealized < 0 :=
  ⟨fun _ => State.makerShare_eq_error, State.makerShare_of_zero,
    fun _ => State.settled_of_makerShare, fun _ _ => Curve.makerValue_of_flat⟩

/-- A basis with as much base as is withdrawn and less quote gives a flat share,
whose notional is realized; more tokens than there are give none. -/
theorem withdrawals_settle_even :
    let s := Pool.even.state
    let b : Basis := ⟨500, 400, 500⟩
    s.makerShare 1001 b = .error (.insufficientLiquidity 1001 1000) ∧
      ∃ share v, s.makerShare 500 b = .ok share ∧ 0 < share.realized ∧
        share.position.openNotional = 0 ∧ Pool.even.curve.makerValue s 500 b = .ok v ∧
        v.unrealized = share.realized := by
  intro s b
  obtain ⟨hrefused, -⟩ := withdrawals_settle s 1001 b
  obtain ⟨-, -, hsettled, hflat⟩ := withdrawals_settle s 500 b
  refine ⟨(hrefused _).mpr (.beyond (by decide +kernel) (by decide +kernel) (by decide +kernel)), ?_⟩
  obtain ⟨v, hval⟩ := Outcome.isOk_iff.mp
    (by decide +kernel : (Pool.even.curve.makerValue s 500 b).isOk = true)
  have hsize : (v.position.size == 0) = true := by
    obtain ⟨-, closing, -, rfl⟩ := Curve.makerValue_eq_ok
      (State.valid_iff.mp Pool.built_even.valid).2.2.2.2.1 (by decide +kernel) hval
    change ((s.withdrawTokens 500 b).position.size == 0) = true
    decide +kernel
  obtain ⟨share, hshare, -, hu, -⟩ := hflat _ v hval hsize
  have hrealized : 0 < share.realized := by
    rw [State.makerShare_of_pos (by decide +kernel), if_pos (by decide +kernel),
      if_neg (by decide +kernel)] at hshare
    cases hshare
    decide +kernel
  exact ⟨share, v, hshare, hrealized,
    (hsettled share hshare).once (by simpa using Double.not_beq_of_lt (.inr hrealized)), hval, hu⟩

end VirtualMarket
