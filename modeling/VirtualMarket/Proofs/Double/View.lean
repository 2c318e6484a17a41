/-
VirtualMarket.Proofs.Double.View — a double as sign, mantissa and exponent.

Every operation on doubles takes its operands apart, computes on the parts and
packs the result.  `view` takes apart, `ofView` packs.  The two are inverse on
the grid of doubles, as long as the exponent is in range; beyond it packing
keeps the sign alone.  The sign survives packing in all cases.
-/
import Mathlib

namespace VirtualMarket.Double

open Float.Model
open Float.Model.UnpackedFloat

/-! ## Taking apart and packing -/

/-- A double taken apart. -/
def view (x : Float) : UnpackedFloat :=
  x.toModel.unpack

/-- The double with the given parts. -/
def ofView (u : UnpackedFloat) : Float :=
  .ofModel (.pack u)

/-- The sign of a number taken apart; a NaN has none. -/
def sign? : UnpackedFloat → Option Sign
  | .notANumber => none
  | .infinity s => some s
  | .zero s => some s
  | .finite s .. => some s

@[simp] theorem sign?_notANumber : sign? .notANumber = none := rfl
@[simp] theorem sign?_infinity (s : Sign) : sign? (.infinity s) = some s := rfl
@[simp] theorem sign?_zero (s : Sign) : sign? (.zero s) = some s := rfl
@[simp] theorem sign?_finite (s : Sign) (m : Nat) (e : Int) (h : 0 < m) :
    sign? (.finite s m e h) = some s := rfl

/-- A positive mantissa and an exponent that a double can have, but for the
largest exponent: 53 bits, of which the first is set unless the exponent is the
least one. -/
structure OnGrid (m : Nat) (e : Int) : Prop where
  lt : m < 2 ^ 53
  low : -1074 ≤ e
  full : 2 ^ 52 ≤ m ∨ e = -1074

/-! ## Fields of a packed double -/

theorem toNat_one_append (m : BitVec 52) : (1#1 ++ m).toNat = 2 ^ 52 + m.toNat := by
  rw [BitVec.toNat_append, ← Nat.shiftLeft_add_eq_or_of_lt m.isLt]
  rfl

/-- Unpacking three fields, the exponent being neither the least nor the
greatest. -/
theorem unpack_packComponents_normal (s : Sign) {e : BitVec 11} (m : BitVec 52)
    (h₀ : e ≠ 0#11) (h₁ : e ≠ -1#11) :
    UnpackedFloat.unpack .binary64 (packComponents .binary64 s e m) =
      .finite s (2 ^ 52 + m.toNat) ((e.toNat : Int) - 1075) (by omega) := by
  have hb : (Format.binary64.exponentBias : Int) + Format.binary64.mantissaBitsWithoutImplicit
      = 1075 := rfl
  simp only [UnpackedFloat.unpack, unpackExponent_packComponents, unpackMantissa_packComponents,
    unpackSign_packComponents, Sign.ofBitVec_toBitVec, hb, if_neg h₀, if_neg h₁,
    toNat_one_append]

/-- Unpacking a fraction with the least exponent. -/
theorem unpack_packComponents_subnormal (s : Sign) {m : BitVec 52} (h : m ≠ 0#52) :
    UnpackedFloat.unpack .binary64 (packComponents .binary64 s 0#11 m) =
      .finite s m.toNat (-1074) (by simpa [BitVec.toNat_pos, BitVec.pos_iff_ne_zero]) := by
  have h₁ : (0#11) ≠ -1#11 := by decide
  have hb : ((0#11).toNat : Int) - ((Format.binary64.exponentBias : Int)
      + Format.binary64.mantissaBitsWithoutImplicit) + 1 = -1074 := rfl
  simp only [UnpackedFloat.unpack, unpackExponent_packComponents, unpackMantissa_packComponents,
    unpackSign_packComponents, Sign.ofBitVec_toBitVec, hb, if_neg h₁, if_true, dif_neg h]

/-- Unpacking keeps the sign, the exponent not being that of a NaN. -/
theorem sign?_unpack_packComponents (s : Sign) {e : BitVec 11} (m : BitVec 52)
    (h : e ≠ -1#11) :
    sign? (UnpackedFloat.unpack .binary64 (packComponents .binary64 s e m)) = some s := by
  simp only [UnpackedFloat.unpack, unpackExponent_packComponents, unpackMantissa_packComponents,
    unpackSign_packComponents, Sign.ofBitVec_toBitVec, if_neg h]
  split
  · split <;> rfl
  · rfl

/-! ## Packing and taking apart -/

theorem view_ofView_notANumber : view (ofView .notANumber) = .notANumber := rfl

@[simp] theorem view_ofView_zero (s : Sign) : view (ofView (.zero s)) = .zero s := by
  cases s <;> rfl

@[simp] theorem view_ofView_infinity (s : Sign) : view (ofView (.infinity s)) = .infinity s := by
  cases s <;> rfl

/-- The three fields of a packed number. -/
theorem pack_finite (s : Sign) (m : Nat) (e : Int) (h : 0 < m) :
    UnpackedFloat.pack .binary64 (.finite s m e h) =
      if 2047 ≤ (e + 1075).toNat then packedInfinity .binary64 s
      else if m.log2 = 52 then
        packComponents .binary64 s (BitVec.ofNat 11 (e + 1075).toNat) (BitVec.ofNat 52 m)
      else packComponents .binary64 s 0#11 (BitVec.ofNat 52 m) := by
  have hb : e + (Format.binary64.exponentBias : Int) + (52 : Nat) = e + 1075 := by
    rw [show (Format.binary64.exponentBias : Int) = 1023 from rfl]
    omega
  have hm : Format.binary64.mantissaBits = 53 := rfl
  simp only [UnpackedFloat.pack, hb, hm, Nat.reduceEqDiff, Nat.reducePow, Nat.reduceLeDiff]

theorem ofNat_ne_neg_one {n : Nat} (h : n < 2047) : BitVec.ofNat 11 n ≠ -1#11 := by
  intro he
  have := congrArg BitVec.toNat he
  rw [BitVec.toNat_ofNat, show (-1#11).toNat = 2047 from rfl] at this
  omega

/-- A number on the grid in the range of doubles is packed without loss. -/
theorem view_ofView_finite (s : Sign) {m : Nat} {e : Int} (h : 0 < m) (hg : OnGrid m e)
    (he : e ≤ 971) : view (ofView (.finite s m e h)) = .finite s m e h := by
  have hlow := hg.low
  have hlt := hg.lt
  show UnpackedFloat.unpack .binary64 (UnpackedFloat.pack .binary64 (.finite s m e h)) = _
  rw [pack_finite, if_neg (by omega)]
  by_cases hm : 2 ^ 52 ≤ m
  · have hlog : m.log2 = 52 := (Nat.log2_eq_iff (by omega)).mpr ⟨hm, hlt⟩
    have hn : (BitVec.ofNat 11 (e + 1075).toNat).toNat = (e + 1075).toNat := by
      rw [BitVec.toNat_ofNat]; omega
    have hf : (BitVec.ofNat 52 m).toNat = m - 2 ^ 52 := by
      rw [BitVec.toNat_ofNat]; omega
    have hne : BitVec.ofNat 11 (e + 1075).toNat ≠ 0#11 := by
      intro h0
      have := congrArg BitVec.toNat h0
      rw [hn] at this
      simp at this
      omega
    rw [if_pos hlog, unpack_packComponents_normal s _ hne (ofNat_ne_neg_one (by omega))]
    simp only [hn, hf, UnpackedFloat.finite.injEq, true_and]
    omega
  · have hlog : m.log2 < 52 := (Nat.log2_lt (by omega)).mpr (by omega)
    obtain rfl : e = -1074 := hg.full.resolve_left hm
    have hf : (BitVec.ofNat 52 m).toNat = m := by
      rw [BitVec.toNat_ofNat]; omega
    have hne : BitVec.ofNat 52 m ≠ 0#52 := by
      intro h0
      have := congrArg BitVec.toNat h0
      rw [hf] at this
      simp at this
      omega
    rw [if_neg (by omega), unpack_packComponents_subnormal s hne]
    simp only [hf]

/-- Beyond the range of doubles packing gives an infinity. -/
theorem view_ofView_overflow (s : Sign) {m : Nat} {e : Int} (h : 0 < m) (he : 971 < e) :
    view (ofView (.finite s m e h)) = .infinity s := by
  show UnpackedFloat.unpack .binary64 (UnpackedFloat.pack .binary64 (.finite s m e h)) = _
  rw [pack_finite, if_pos (by omega)]
  cases s <;> rfl

/-- Packing keeps the sign. -/
theorem sign?_view_ofView (u : UnpackedFloat) : sign? (view (ofView u)) = sign? u := by
  cases u with
  | notANumber => rfl
  | infinity s => rw [view_ofView_infinity]
  | zero s => rw [view_ofView_zero]
  | finite s m e h =>
    show sign? (UnpackedFloat.unpack .binary64 (UnpackedFloat.pack .binary64 (.finite s m e h))) = _
    rw [pack_finite]
    split
    · cases s <;> rfl
    · rename_i hr
      split
      · exact sign?_unpack_packComponents s _ (ofNat_ne_neg_one (by omega))
      · exact sign?_unpack_packComponents s _ (by decide)

/-- What is taken apart lies on the grid, in the range of doubles. -/
theorem onGrid_of_view {x : Float} {s : Sign} {m : Nat} {e : Int} {h : 0 < m}
    (hv : view x = .finite s m e h) : OnGrid m e ∧ e ≤ 971 := by
  change UnpackedFloat.unpack .binary64 x.toModel.toBits.toBitVec = _ at hv
  generalize x.toModel.toBits.toBitVec = b at hv
  have hf : (@unpackMantissa .binary64 b).toNat < 2 ^ 52 := BitVec.isLt _
  have hx : (@unpackExponent .binary64 b).toNat < 2 ^ 11 := BitVec.isLt _
  have hb : (Format.binary64.exponentBias : Int) + Format.binary64.mantissaBitsWithoutImplicit
      = 1075 := rfl
  simp only [UnpackedFloat.unpack, hb] at hv
  split at hv
  · split at hv <;> cases hv
  · rename_i hmax
    split at hv
    · rename_i hzero
      split at hv
      · cases hv
      · cases hv
        rw [hzero]
        exact ⟨⟨by omega, by decide, .inr (by decide)⟩, by decide⟩
    · rename_i hpos
      cases hv
      have h0 : (@unpackExponent .binary64 b).toNat ≠ 0 :=
        fun h0 => hpos (BitVec.eq_of_toNat_eq h0)
      have h1 : (@unpackExponent .binary64 b).toNat ≠ 2047 :=
        fun h1 => hmax (BitVec.eq_of_toNat_eq h1)
      rw [toNat_one_append]
      exact ⟨⟨by omega, by omega, .inl (by omega)⟩, by omega⟩

/-- Packing what was taken apart gives the double back. -/
theorem ofView_view (x : Float) : ofView (view x) = x :=
  x.ofBits_toBits

end VirtualMarket.Double
