/-
VirtualMarket.Proofs.Outcome — outcomes of steps in sequence, and of guards.

Most functions of a market are sequences of steps that may fail.  A sequence
succeeds if every step does, and fails like the first that fails; taken apart
by these lemmas, it is read step by step without opening the sequence.
-/
import VirtualMarket.Curve.Basic

namespace VirtualMarket

namespace Outcome

variable {α β : Type} {x : Outcome α} {f : α → Outcome β}

theorem bind_eq_ok {b : β} : x >>= f = .ok b ↔ ∃ a, x = .ok a ∧ f a = .ok b := by
  cases x <;> simp [bind, Except.bind]

theorem bind_eq_error {e : Fault} :
    x >>= f = .error e ↔ x = .error e ∨ ∃ a, x = .ok a ∧ f a = .error e := by
  cases x <;> simp [bind, Except.bind]

/-- A sequence that begins with a test succeeds if the test passes and the rest does. -/
theorem test_bind_eq_ok {test : Outcome Unit} {f : Unit → Outcome β} {b : β} :
    test >>= f = .ok b ↔ test = .ok () ∧ f () = .ok b := by
  cases test <;> simp [bind, Except.bind]

theorem isOk_iff : x.isOk = true ↔ ∃ a, x = .ok a := by
  cases x <;> simp [Except.isOk, Except.toBool]

theorem isOk_eq_false_iff : x.isOk = false ↔ ∃ fault, x = .error fault := by
  cases x <;> simp [Except.isOk, Except.toBool]

/-- An outcome that passes a test is a success whose value does. -/
theorem any_toOption_iff {p : α → Bool} :
    x.toOption.any p = true ↔ ∃ a, x = .ok a ∧ p a = true := by
  cases x <;> simp [Except.toOption]

/-- Every fault that an outcome can be satisfies `P`. -/
def FaultsIn (P : Fault → Prop) (x : Outcome α) : Prop :=
  ∀ fault, x = .error fault → P fault

variable {P Q : Fault → Prop}

theorem FaultsIn.mono (h : ∀ fault, P fault → Q fault) (hx : FaultsIn P x) : FaultsIn Q x :=
  fun fault he => h fault (hx fault he)

theorem FaultsIn.ok (a : α) : FaultsIn P (.ok a) := by
  intro fault h
  cases h

theorem FaultsIn.error {e : Fault} (h : P e) : FaultsIn P (.error e : Outcome α) := by
  intro fault he
  cases he
  exact h

/-- The faults of a sequence are those of its steps, the later ones after what
the first has found. -/
theorem FaultsIn.bind_found (hx : FaultsIn P x) (hf : ∀ a, x = .ok a → FaultsIn P (f a)) :
    FaultsIn P (x >>= f) := by
  intro fault h
  rcases bind_eq_error.mp h with h | ⟨a, ha, h⟩
  · exact hx fault h
  · exact hf a ha fault h

theorem FaultsIn.bind (hx : FaultsIn P x) (hf : ∀ a, FaultsIn P (f a)) :
    FaultsIn P (x >>= f) :=
  hx.bind_found fun a _ => hf a

/-- A sequence fails in a certain way if its first step can fail in no other way, and what
comes after a success fails in that way. -/
theorem FaultsIn.exists_error (hx : FaultsIn P x)
    (hf : ∀ a, x = .ok a → ∃ fault, P fault ∧ f a = .error fault) :
    ∃ fault, P fault ∧ x >>= f = .error fault := by
  cases x with
  | ok a => exact hf a rfl
  | error fault => exact ⟨fault, hx fault rfl, rfl⟩

end Outcome

/-! ## Translated errors -/

section

variable {α ε ε' : Type} {x : Except ε α} {f : ε → ε'}

theorem mapError_eq_ok {a : α} : x.mapError f = .ok a ↔ x = .ok a := by
  cases x with
  | ok b =>
    rw [Except.ok.injEq]
    exact ⟨Except.ok.inj, congrArg Except.ok⟩
  | error cause => exact ⟨nofun, nofun⟩

theorem mapError_eq_error {e : ε'} :
    x.mapError f = .error e ↔ ∃ cause, x = .error cause ∧ f cause = e := by
  cases x with
  | ok b =>
    refine ⟨nofun, ?_⟩
    rintro ⟨cause, h, -⟩
    cases h
  | error cause =>
    refine ⟨fun h => ⟨cause, rfl, Except.error.inj h⟩, ?_⟩
    rintro ⟨_, h, rfl⟩
    cases h
    rfl

end

/-! ## Guards -/

theorem Band.contains_iff {b : Band} {x : Float} :
    b.contains x = true ↔ b.low ≤ x ∧ x ≤ b.high := by
  simp [Band.contains]

theorem guardBand_eq_ok {b : Band} {q : Quantity} {x : Float} :
    guardBand b q x = .ok () ↔ b.contains x = true := by
  unfold guardBand
  split <;> simp [*]

theorem guardBand_eq_error {b : Band} {q : Quantity} {x : Float} {fault : Fault} :
    guardBand b q x = .error fault ↔
      b.contains x = false ∧ .unsafeParameter q x = fault := by
  unfold guardBand
  split <;> simp [*]

/-- A sequence that begins with a guard fails like the guard, or after it. -/
theorem guardBand_bind_eq_error {α : Type} {b : Band} {q : Quantity} {x : Float}
    {f : Unit → Outcome α} {fault : Fault} :
    guardBand b q x >>= f = .error fault ↔
      (b.contains x = false ∧ .unsafeParameter q x = fault) ∨
        (b.contains x = true ∧ f () = .error fault) := by
  rw [Outcome.bind_eq_error, guardBand_eq_error, ← guardBand_eq_ok (q := q)]
  exact or_congr_right ⟨fun ⟨_, h⟩ => h, fun h => ⟨(), h⟩⟩

/-- The constants pass if both lie in their bands. -/
theorem Shape.guarded_eq_ok {s : Shape} : s.guarded = .ok () ↔
    Band.amplification.contains s.amplification = true ∧
      Band.gamma.contains s.gamma = true := by
  rw [guarded, Outcome.test_bind_eq_ok, guardBand_eq_ok, guardBand_eq_ok]

/-! ## Numbers of assets -/

theorem Asset.ofIndex_eq_ok {index : Nat} {asset : Asset} :
    Asset.ofIndex index = .ok asset ↔ Asset.ofIndex? index = some asset := by
  unfold Asset.ofIndex
  cases Asset.ofIndex? index <;> simp

theorem Asset.lt_two_of_ofIndex? {index : Nat} {asset : Asset}
    (h : Asset.ofIndex? index = some asset) : index < 2 := by
  obtain _ | _ | index := index
  · exact Nat.two_pos
  · exact Nat.one_lt_two
  · cases h

end VirtualMarket
