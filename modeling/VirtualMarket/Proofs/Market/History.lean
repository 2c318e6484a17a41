/-
VirtualMarket.Proofs.Market.History — the changes that a run makes.

Of all operations only a successful trade or update changes a pool, and each of
them does so by one update of the state.  The history of a run lists these
changes.  They are linked, each starting from the state that the one before has
left, so a property of states that updates preserve holds along the whole run.
-/
import VirtualMarket.Proofs.Market.Step

namespace VirtualMarket

/-! ## One operation -/

/-- A successful update: the operation, the state before it, and what it gave. -/
structure Change where
  op : Operation
  before : State
  move : PegMove
  after : State

/-- The state that the update was called on: reserves are exchanged first. -/
def Change.traded (u : Change) : State :=
  { u.before with reserves := u.after.reserves }

/-- The change is the work of an update, and reserves are exchanged only if the
invariant is solved. -/
structure Change.Sound (c : Curve) (u : Change) : Prop where
  updates : ∃ tradePrice now, c.Updates u.traded tradePrice u.op.supplied? now u.move u.after
  reserves : u.op.supplied? = none ∨ u.after.reserves = u.before.reserves

namespace Pool

/-- The change that an operation makes, if it succeeds in making one. -/
def change? (p : Pool) (op : Operation) : Option Change :=
  match p.perform op with
  | .ok (answer, after) => answer.move?.map fun move => ⟨op, p.state, move, after.state⟩
  | .error _ => none

/-- An operation that succeeds either reads or makes one update. -/
theorem perform_cases {p after : Pool} {op : Operation} {answer : Answer}
    (h : p.perform op = .ok (answer, after)) :
    (answer.move? = none ∧ after = p) ∨
      ∃ reserves tradePrice now move state, answer.move? = some move ∧
        after = { p with state := state } ∧
        (op.supplied? = none ∨ reserves = p.state.reserves) ∧
        p.curve.update { p.state with reserves := reserves } tradePrice op.supplied? now
          = .ok (move, state) := by
  cases performs_of_perform h with
  | reads hop hm leaves => exact .inl ⟨hm, leaves⟩
  | updates hop ht hm hp hu leaves =>
    exact .inr ⟨_, _, _, _, _, hm, leaves, op.supplied?_eq_none_or_post answer _, hu⟩

/-- Applying an operation makes a change or leaves the pool as it was. -/
theorem apply_cases (p : Pool) (op : Operation) :
    (p.change? op = none ∧ (p.apply op).2 = p) ∨
      ∃ u, p.change? op = some u ∧ u.op = op ∧ u.before = p.state ∧ u.Sound p.curve ∧
        (p.apply op).2 = { p with state := u.after } := by
  rw [change?, apply_eq]
  cases h : p.perform op with
  | error fault => exact .inl ⟨rfl, rfl⟩
  | ok result =>
    obtain ⟨answer, after⟩ := result
    rcases perform_cases h with ⟨hm, rfl⟩ | ⟨reserves, tradePrice, now, move, state, hm, rfl, hr, hu⟩
    · dsimp only
      rw [hm]
      exact .inl ⟨rfl, rfl⟩
    · dsimp only
      rw [hm]
      have hu := Curve.updates_of_update hu
      have hs : state.reserves = reserves := hu.reserves
      subst hs
      exact .inr ⟨_, rfl, rfl, rfl, ⟨⟨tradePrice, now, hu⟩, hr⟩, rfl⟩

/-! ## Runs -/

/-- The changes that a run makes, in order. -/
def history (p : Pool) : List Operation → List Change
  | [] => []
  | op :: rest => (p.change? op).toList ++ (p.apply op).2.history rest

end Pool

/-- Each change starts from the state that the one before has left. -/
def Linked (s : State) : List Change → State → Prop
  | [], t => s = t
  | u :: rest, t => u.before = s ∧ Linked u.after rest t

theorem linked_append {s t : State} {first : List Change} {rest : List Change} :
    Linked s (first ++ rest) t ↔ ∃ r, Linked s first r ∧ Linked r rest t := by
  induction first generalizing s with
  | nil => simp [Linked]
  | cons u first ih =>
    simp only [List.cons_append, Linked, ih]
    constructor
    · rintro ⟨hb, r, h, h'⟩
      exact ⟨r, ⟨hb, h⟩, h'⟩
    · rintro ⟨r, ⟨hb, h⟩, h'⟩
      exact ⟨hb, r, h, h'⟩

/-- A property of states that changes preserve is passed on along linked
changes. -/
theorem Linked.induction {P : State → Prop} {s t : State} {us : List Change} (h : Linked s us t)
    (step : ∀ u ∈ us, P u.before → P u.after) (hs : P s) : P t ∧ ∀ u ∈ us, P u.before := by
  induction us generalizing s with
  | nil =>
    cases h
    exact ⟨hs, by simp⟩
  | cons u us ih =>
    obtain ⟨rfl, h⟩ := h
    obtain ⟨ht, hu⟩ := ih h (fun v hv => step v (List.mem_cons_of_mem _ hv))
      (step u List.mem_cons_self hs)
    exact ⟨ht, by simpa [hs] using hu⟩

namespace Pool

theorem run_cons (p : Pool) (op : Operation) (rest : List Operation) :
    (p.run (op :: rest)).2 = ((p.apply op).2.run rest).2 := rfl

/-- The history of a run leads from its first state to its last. -/
theorem linked_history (p : Pool) (ops : List Operation) :
    Linked p.state (p.history ops) (p.run ops).2.state := by
  induction ops generalizing p with
  | nil => rfl
  | cons op rest ih =>
    have h := ih (p.apply op).2
    rw [history, run_cons]
    rcases p.apply_cases op with ⟨hc, ha⟩ | ⟨u, hc, -, hb, -, ha⟩
    · rw [hc, ha]
      rwa [ha] at h
    · rw [hc, ha]
      rw [ha] at h
      exact ⟨hb, h⟩

/-- Every change in the history of a run is sound. -/
theorem sound_of_mem_history {p : Pool} {ops : List Operation} {u : Change}
    (h : u ∈ p.history ops) : u.Sound p.curve := by
  induction ops generalizing p with
  | nil => cases h
  | cons op rest ih =>
    rw [history] at h
    rcases List.mem_append.mp h with h | h
    · rcases p.apply_cases op with ⟨hc, -⟩ | ⟨v, hc, -, -, hs, -⟩
      · rw [hc] at h
        cases h
      · rw [hc, Option.toList_some, List.mem_singleton] at h
        rwa [h]
    · have hu := ih h
      rcases p.apply_cases op with ⟨-, ha⟩ | ⟨v, -, -, -, -, ha⟩ <;> rwa [ha] at hu

/-- A property of states that sound changes preserve holds along a run. -/
theorem run_induction {p : Pool} {P : State → Prop} (hp : P p.state)
    (step : ∀ u : Change, u.Sound p.curve → P u.before → P u.after) (ops : List Operation) :
    P (p.run ops).2.state ∧ ∀ u ∈ p.history ops, P u.before :=
  (p.linked_history ops).induction (fun u hu => step u (sound_of_mem_history hu)) hp

/-- A pool with a thousand of each asset at a price of one. -/
def even : Pool :=
  ⟨{}, {}, { depositState {} ⟨1000, 1000⟩ 2000 1 0 with totalSupply := 1000 }⟩

end Pool

end VirtualMarket
