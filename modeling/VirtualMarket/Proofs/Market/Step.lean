/-
VirtualMarket.Proofs.Market.Step — what one operation does to a pool.

A successful operation either reads and leaves the pool as it was, or makes one
update of the state: on the reserves that its answer accounts for, with the
price that its answer reports, at its own time.  Purchases, sales and updates
differ in these alone, so whatever is proved of an update with any reserves,
price and time holds for all of them.
-/
import VirtualMarket.Proofs.Market.Program
import VirtualMarket.Proofs.Market.Trade

namespace VirtualMarket

/-! ## Parts of an operation -/

/-- What the operation did to the peg, if it ended in an update. -/
def Answer.move? : Answer → Option PegMove
  | .execution e => some e.peg
  | .peg move => some move
  | _ => none

namespace Operation

/-- The invariant that an operation hands in from outside. -/
def supplied? : Operation → Option Float
  | .update _ supplied _ => supplied
  | _ => none

/-- The base that an operation trades. -/
def size? : Operation → Option Float
  | .buy size .. => some size
  | .sell size .. => some size
  | _ => none

/-- The trade price that an operation hands to its update. -/
def price? (op : Operation) (answer : Answer) : Option Float :=
  match op, answer with
  | .update price .., _ => price
  | _, .execution e => some e.price
  | _, _ => none

/-- The reserves after an operation, from its answer: a purchase takes the
amount in and hands the size out, a sale does the reverse. -/
def post (op : Operation) (answer : Answer) (r : Reserves) : Reserves :=
  match op, answer with
  | .buy size .., .execution e => ⟨r.quote + e.amount, r.base - size⟩
  | .sell size .., .execution e => ⟨r.quote - e.amount, r.base + size⟩
  | _, _ => r

/-- The price of an execution is its amount over the size. -/
def Priced (op : Operation) (answer : Answer) : Prop :=
  ∀ execution, answer = .execution execution →
    ∃ size, op.size? = some size ∧ execution.price = execution.amount / size

theorem size?_of_reads {op : Operation} (h : op.mutates = false) : op.size? = none := by
  cases op with
  | buy | sell => cases h
  | _ => rfl

/-- Reserves are exchanged only by operations that hand in no invariant. -/
theorem supplied?_eq_none_or_post (op : Operation) (answer : Answer) (r : Reserves) :
    op.supplied? = none ∨ op.post answer r = r := by
  cases op with
  | update => exact .inr rfl
  | _ => exact .inl rfl

end Operation

namespace Pool

/-- The time at which an operation updates the pool; reading takes none. -/
def timeOf? (p : Pool) : Operation → Option Int
  | .buy _ _ time => some (time.getD p.nextTime)
  | .sell _ _ time => some (time.getD p.nextTime)
  | .update _ _ time => some time
  | _ => none

theorem timeOf?_of_reads {p : Pool} {op : Operation} (h : op.mutates = false) :
    p.timeOf? op = none := by
  cases op with
  | buy | sell | update => cases h
  | _ => rfl

/-! ## Success -/

/-- The successes of an operation: reading, or one update. -/
inductive Performs (p : Pool) (op : Operation) (answer : Answer) (after : Pool) : Prop
  | reads (mutates : op.mutates = false) (move : answer.move? = none) (leaves : after = p)
  | updates {now : Int} {move : PegMove} {s : State} (mutates : op.mutates = true)
      (time : p.timeOf? op = some now) (hm : answer.move? = some move)
      (priced : op.Priced answer)
      (update : p.curve.update { p.state with reserves := op.post answer p.state.reserves }
        (op.price? answer) op.supplied? now = .ok (move, s))
      (leaves : after = { p with state := s })

/-- An operation that succeeds does so in one of the two ways. -/
theorem performs_of_perform {p after : Pool} {op : Operation} {answer : Answer}
    (h : p.perform op = .ok (answer, after)) : p.Performs op answer after := by
  cases op with
  | buy size most time =>
    obtain ⟨⟨execution, bought⟩, hb, h⟩ := Outcome.bind_eq_ok.mp h
    rw [buyAt_eq_trade] at hb
    obtain ⟨quote, state, -, -, hu, rfl, he⟩ := trade_eq_ok hb
    cases h
    rw [he]
    refine .updates rfl rfl rfl (fun _ h => ?_) hu rfl
    cases h
    exact ⟨size, rfl, rfl⟩
  | sell size least time =>
    obtain ⟨⟨execution, sold⟩, hs, h⟩ := Outcome.bind_eq_ok.mp h
    rw [sellAt_eq_trade] at hs
    obtain ⟨quote, state, -, -, hu, rfl, he⟩ := trade_eq_ok hs
    cases h
    rw [he]
    refine .updates rfl rfl rfl (fun _ h => ?_) hu rfl
    cases h
    exact ⟨size, rfl, rfl⟩
  | update tradePrice supplied time =>
    obtain ⟨⟨peg, updated⟩, hp, h⟩ := Outcome.bind_eq_ok.mp h
    obtain ⟨⟨peg', state⟩, hu, hp⟩ := Outcome.bind_eq_ok.mp hp
    cases hp
    cases h
    exact .updates rfl rfl rfl nofun hu rfl
  | markPrice | reserves =>
    cases h
    exact .reads rfl rfl rfl
  | quotePurchase | quoteSale | makerValue | closePosition | sizeToTarget | depth =>
    obtain ⟨value, -, h⟩ := Outcome.bind_eq_ok.mp h
    cases h
    exact .reads rfl rfl rfl

/-- What an operation does to the pool that it is applied to. -/
theorem performs_of_apply {p : Pool} {op : Operation} {answer : Answer}
    (h : (p.apply op).1 = .ok answer) : p.Performs op answer (p.apply op).2 := by
  rw [apply_eq] at h ⊢
  cases hp : p.perform op with
  | ok result =>
    rw [hp] at h
    cases h
    exact performs_of_perform hp
  | error fault =>
    rw [hp] at h
    cases h

/-- An operation that fails leaves the pool as it was. -/
theorem apply_of_error {p : Pool} {op : Operation} {fault : Fault}
    (h : (p.apply op).1 = .error fault) : (p.apply op).2 = p :=
  (p.settles_program op).of_error h

end Pool

end VirtualMarket
