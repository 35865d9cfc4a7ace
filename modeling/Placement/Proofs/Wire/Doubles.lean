import Mathlib.Algebra.Group.Int.Defs
import Mathlib.Algebra.Group.Nat.Defs
import Placement.Json
/-! # Whole numbers as doubles

A whole number may stand where a double is stored, and is read as the nearest double.
**The double of a whole number of 64 bits is finite** (`isFinite_ofInt`), so it can be stored
in turn.

Only exponents matter: a double becomes infinite when its exponent is too large, and rounding
a mantissa raises the exponent by no more than the mantissa has bits, twice over.
-/
namespace Placement
open Float.Model Float.Model.UnpackedFloat

/-- Zero, or finite with a mantissa of so many bits and an exponent of at most so much. -/
inductive Moderate (bits : Nat) (bound : Int) : UnpackedFloat → Prop
  | zero (s : Sign) : Moderate bits bound (.zero s)
  | finite {s : Sign} {mantissa : Nat} {exponent : Int} {hpos : 0 < mantissa}
      (hmantissa : mantissa < 2 ^ bits) (hexponent : exponent ≤ bound) :
      Moderate bits bound (.finite s mantissa exponent hpos)

namespace Moderate
variable {bits : Nat} {bound : Int} {x y : UnpackedFloat}

theorem isFinite (h : Moderate bits bound x) : x.isFinite = true := by
  cases h with
  | zero s => rfl
  | finite hm he => rfl

theorem mono {bits' : Nat} {bound' : Int} (h : Moderate bits bound x) (hbits : bits ≤ bits')
    (hbound : bound ≤ bound') : Moderate bits' bound' x := by
  cases h with
  | zero s => exact .zero s
  | finite hm he =>
      have hpow : 2 ^ bits ≤ 2 ^ bits' := Nat.pow_le_pow_right (by decide) hbits
      exact .finite (Nat.lt_of_lt_of_le hm hpow) (Int.le_trans he hbound)

theorem zeroOr (s : Sign) {m : Nat} {e : Int} (hm : m < 2 ^ bits) (he : e ≤ bound) :
    Moderate bits bound
      (if h : m = 0 then .zero s else .finite s m e (Nat.pos_of_ne_zero h)) := by
  by_cases hzero : m = 0
  · rw [dif_pos hzero]
    exact .zero s
  · rw [dif_neg hzero]
    exact .finite hm he

theorem neg (h : Moderate bits bound x) : Moderate bits bound x.neg := by
  cases h with
  | zero s => exact .zero _
  | finite hm he => exact .finite hm he

end Moderate

/-! ## Rounding -/

theorem mantissa_shiftRight_le (em : ExtendedMantissa) (k : Nat) :
    (em >>> k).mantissa ≤ em.mantissa := by
  induction k with
  | zero => exact Nat.le_refl _
  | succ k ih =>
      have hstep : (em >>> (k + 1)).mantissa = (em >>> k).mantissa / 2 := rfl
      omega

theorem roundedMantissa_le (em : ExtendedMantissa) : em.roundedMantissa ≤ em.mantissa + 1 := by
  obtain ⟨m, round, sticky⟩ := em
  cases round <;> cases sticky <;>
    simp [ExtendedMantissa.roundedMantissa, ExtendedMantissa.accuracy, Accuracy.roundToNearestEven]
  omega

theorem log2_le_of_lt {m bits : Nat} (h : m < 2 ^ bits) : m.log2 ≤ bits := by
  rcases Nat.eq_zero_or_pos m with rfl | hpos
  · exact Nat.zero_le _
  · have hlog := (Nat.log2_lt (Nat.ne_of_gt hpos)).mpr h
    omega

/-- Bringing a mantissa to its exponent takes bits from it and adds no more than these to the
exponent. -/
theorem shiftToTargetExponent_spec {bits : Nat} {bound : Int} {m : Nat} {e : Int}
    (hm : m < 2 ^ bits) (he : e ≤ bound) (hbound : 0 ≤ bound) :
    (shiftToTargetExponent .binary64 m e .exact).1.mantissa < 2 ^ bits ∧
      (shiftToTargetExponent .binary64 m e .exact).2 ≤ bound + bits := by
  constructor
  · exact Nat.lt_of_le_of_lt (mantissa_shiftRight_le ⟨m, false, false⟩ _) hm
  · have hlog := log2_le_of_lt hm
    have hbits : Format.binary64.mantissaBits = 53 := rfl
    simp only [shiftToTargetExponent, shiftToExponent, Format.targetExponent, totalExponent,
      hbits, Format.minExponent]
    omega

/-- **Rounding raises the exponent by no more than the bits of the mantissa**, once for each
of its two shifts. -/
theorem moderate_roundWithAccuracy (bits : Nat) (bound : Int) {m : Nat} {e : Int} (s : Sign)
    (hm : m < 2 ^ bits) (he : e ≤ bound) (hbound : 0 ≤ bound) :
    Moderate (bits + 1) (bound + bits + (bits + 1))
      (roundWithAccuracy .binary64 s m e .exact) := by
  obtain ⟨hfirst, hexponent⟩ := shiftToTargetExponent_spec hm he hbound
  have hround :
      (shiftToTargetExponent .binary64 m e .exact).1.roundedMantissa < 2 ^ (bits + 1) := by
    have hle := roundedMantissa_le (shiftToTargetExponent .binary64 m e .exact).1
    have htwice : 2 ^ (bits + 1) = 2 ^ bits * 2 := Nat.pow_succ ..
    omega
  obtain ⟨hmantissa, hlast⟩ := shiftToTargetExponent_spec hround hexponent (by omega)
  exact .zeroOr s hmantissa (Int.le_trans hlast (by omega))

theorem moderate_mul {bits bits' : Nat} {bound bound' : Int} {x y : UnpackedFloat}
    (hx : Moderate bits bound x) (hy : Moderate bits' bound' y) (hbound : 0 ≤ bound + bound') :
    Moderate (bits + bits' + 1) (bound + bound' + ↑(bits + bits') + (↑(bits + bits') + 1))
      (UnpackedFloat.mul .binary64 x y) := by
  cases hx with
  | zero s =>
      cases hy with
      | zero s' => exact .zero _
      | finite hm' he' => exact .zero _
  | finite hm he =>
      cases hy with
      | zero s' => exact .zero _
      | @finite s' _ _ _ hm' he' =>
          have hmantissa := Nat.mul_lt_mul'' hm hm'
          rw [← Nat.pow_add] at hmantissa
          exact moderate_roundWithAccuracy _ _ _ hmantissa (Int.add_le_add he he') hbound

/-! ## Packing -/

/-- What bits stand for, if the exponent is not the largest one. -/
theorem moderate_unpack {bound : Int} {packed : BitVec Format.binary64.numBits}
    {exponent : Nat} (hexponent : (unpackExponent packed).toNat = exponent)
    (hlarge : exponent + 1 < 2 ^ 11) (hbound : (exponent : Int) ≤ bound + 1075)
    (hlow : 0 ≤ bound) : Moderate 53 bound (UnpackedFloat.unpack .binary64 packed) := by
  subst hexponent
  have hsmall : (unpackMantissa packed).toNat < 2 ^ 53 :=
    Nat.lt_trans (unpackMantissa packed).isLt (by decide)
  have hfinite : unpackExponent packed ≠ -1#11 := by
    intro h
    rw [h] at hlarge
    exact absurd hlarge (by decide)
  unfold UnpackedFloat.unpack
  dsimp only
  rw [if_neg hfinite]
  by_cases hzero : unpackExponent packed = 0#11
  · rw [if_pos hzero]
    by_cases hempty : unpackMantissa packed = 0#52
    · rw [dif_pos hempty]
      exact .zero _
    · rw [dif_neg hempty]
      refine .finite hsmall ?_
      have hnat : (unpackExponent packed).toNat = 0 := by rw [hzero]; rfl
      simp only [hnat, Format.exponentBias]
      omega
  · rw [if_neg hzero]
    refine .finite (1#1 ++ unpackMantissa packed).isLt ?_
    simp only [Format.exponentBias]
    omega

theorem moderate_unpack_packComponents {bound : Int} (s : Sign) {exponent : BitVec 11}
    (mantissa : BitVec 52) (hlarge : exponent.toNat + 1 < 2 ^ 11)
    (hbound : (exponent.toNat : Int) ≤ bound + 1075) (hlow : 0 ≤ bound) :
    Moderate 53 bound (UnpackedFloat.unpack .binary64
      (UnpackedFloat.packComponents .binary64 s exponent mantissa)) := by
  have hexponent : unpackExponent (packComponents .binary64 s exponent mantissa) = exponent :=
    unpackExponent_packComponents
  exact moderate_unpack (congrArg BitVec.toNat hexponent) hlarge hbound hlow

/-- **A moderate exponent survives packing.** -/
theorem moderate_unpack_pack (bits : Nat) {bound : Int} {x : UnpackedFloat}
    (h : Moderate bits bound x) (hlow : 0 ≤ bound) (hhigh : bound < 971) :
    Moderate 53 bound (UnpackedFloat.unpack .binary64 (UnpackedFloat.pack .binary64 x)) := by
  cases h with
  | zero s => exact moderate_unpack_packComponents s 0 (by decide) (by simp; omega) hlow
  | @finite s m e hpos hm he =>
      have hbiased : (e + 1023 + 52).toNat + 1 < 2 ^ 11 := by omega
      have hsmall : ((e + 1023 + 52).toNat : Int) ≤ bound + 1075 := by omega
      have hofNat : (BitVec.ofNat 11 (e + 1023 + 52).toNat).toNat = (e + 1023 + 52).toNat :=
        Nat.mod_eq_of_lt (by omega)
      unfold UnpackedFloat.pack
      dsimp only
      split
      · rename_i hlarge
        exact absurd hlarge (Nat.not_le.mpr hbiased)
      · split
        · exact moderate_unpack_packComponents s _ (by rw [← hofNat] at hbiased; exact hbiased)
            (by rw [← hofNat] at hsmall; exact hsmall) hlow
        · exact moderate_unpack_packComponents s _ (by decide) (by simp; omega) hlow

/-! ## Whole numbers -/

theorem shiftLeft_lt {m bits k shift : Nat} (hm : m < 2 ^ bits) (hk : k ≤ shift) :
    m <<< k < 2 ^ (bits + shift) := by
  rw [Nat.shiftLeft_eq, Nat.pow_add]
  exact Nat.mul_lt_mul_of_lt_of_le hm (Nat.pow_le_pow_right (by decide) hk) (Nat.two_pow_pos _)

/-- Making room below a mantissa adds no more than 52 bits to it and lowers the exponent. -/
theorem moderate_round {m : Nat} (s : Sign) (hm : m < 2 ^ 64) :
    Moderate 117 233 (UnpackedFloat.round .binary64 s m 0) := by
  have hlog := log2_le_of_lt hm
  rw [UnpackedFloat.round]
  have hbits : Format.binary64.mantissaBits = 53 := rfl
  simp only [decreaseExponent, Format.targetExponent, totalExponent, hbits, Format.minExponent]
  have hroom : (0 - max (↑m.log2 + 1 + 0 - (↑(53 : Nat) : Int))
      (3 - 2 ^ (11 - 1) - ↑(53 : Nat))).toNat ≤ 52 := by
    omega
  exact moderate_roundWithAccuracy 116 0 s (shiftLeft_lt hm hroom)
    (by omega) (Int.le_refl 0)

theorem moderate_ofUInt64 (n : UInt64) :
    Moderate 53 233 (Float.Model.ofUInt64 n).unpack := by
  refine moderate_unpack_pack 117 ?_ (by decide) (by decide)
  show Moderate 117 233 (UnpackedFloat.normalize .binary64 n.toNat 0 .positive)
  have hlt : n.toNat < 2 ^ 64 := n.toNat_lt
  rw [UnpackedFloat.normalize]
  split
  · exact moderate_round .negative (by omega)
  · exact .zero _
  · exact moderate_round .positive (by omega)

theorem moderate_ofScientific {m : Nat} (hm : m < 2 ^ 64) :
    Moderate 53 237 (Float.Model.ofScientific m 0).unpack := by
  refine moderate_unpack_pack 119 ?_ (by decide) (by decide)
  rw [UnpackedFloat.ofScientific]
  by_cases hzero : m = 0
  · rw [dif_pos hzero]
    exact .zero _
  · rw [dif_neg hzero]
    have hsmall : ¬ (0 : Int) > 2 ^ Format.binary64.exponentBits := by decide
    have hlarge : ¬ (0 : Int) < -(2 ^ Format.binary64.exponentBits + (m.log2 : Int)) := by
      simp only
      omega
    rw [if_neg hsmall, if_neg hlarge, if_pos (Int.le_refl 0)]
    have hshifted (hpos) : Moderate 117 0 (.finite .positive (m <<< 53) (-53) hpos) :=
      .finite (shiftLeft_lt hm (Nat.le_refl 53)) (by decide)
    have hunit : Moderate 1 0 (.finite .positive 1 0 (by decide)) :=
      .finite (by decide) (Int.le_refl 0)
    exact (moderate_mul (hshifted _) hunit (by decide)).mono (by decide) (by decide)

theorem moderate_one : Moderate 53 0 Float.exactlyRepresentablePowersOfTen[0].toModel.unpack := by
  have hone : Float.exactlyRepresentablePowersOfTen[0].toModel.unpack =
      .finite .positive (2 ^ 52) (-52) (by decide) := by
    rfl
  rw [hone]
  exact .finite (by decide) (by decide)

theorem moderate_ofNat {n : Nat} (hn : n < 2 ^ 64) :
    Moderate 53 446 (Float.ofNat n).toModel.unpack := by
  show Moderate 53 446 (Float.ofScientific n false 0).toModel.unpack
  rw [Float.ofScientific]
  split
  · refine moderate_unpack_pack 107 ?_ (by decide) (by decide)
    exact (moderate_mul (moderate_ofUInt64 n.toUInt64) moderate_one (by decide)).mono
      (by decide) (by decide)
  · exact (moderate_ofScientific hn).mono (Nat.le_refl 53) (by decide)

/-- **The double of a whole number of 64 bits, with or without sign, is finite.** -/
theorem isFinite_ofInt {n : Int} (hlow : -2 ^ 63 ≤ n) (hhigh : n < 2 ^ 64) :
    (Float.ofInt n).isFinite = true := by
  cases n with
  | ofNat n =>
      have hn : n < 2 ^ 64 := Int.ofNat_lt.mp hhigh
      have hmoderate := moderate_ofNat hn
      exact hmoderate.isFinite
  | negSucc n =>
      have hmoderate := moderate_ofNat (n := n.succ) (by omega)
      exact (moderate_unpack_pack _ hmoderate.neg (by decide) (by decide)).isFinite

end Placement
