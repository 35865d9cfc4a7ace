import Mathlib.Algebra.Order.Field.Power
import Mathlib.Data.Rat.Cast.Order
import Mathlib.Tactic.FieldSimp
import Mathlib.Tactic.Linarith
import Mathlib.Tactic.Positivity
import Mathlib.Tactic.Ring
import Placement.Decimal.Shortest
/-! # Shortest decimals belong to one double

A double stands for the numbers that round to it (`Binary.Reads`).  **No number rounds to two
doubles** (`Binary.reads_unique`): where two of these intervals touch, one of the two
significands is odd, and its interval is open.

The search for the shortest decimal only accepts points of the interval, and **always finds
one** (`Decimal.shortest_reads`): a grid of seventeen digits is finer than the interval is
wide.
-/
namespace Placement

/-- The number `digits * 10 ^ exponent`. -/
def Decimal.value (d : Decimal) : ℚ := d.digits * 10 ^ d.exponent

namespace Binary
variable {b c : Binary} {x : ℚ}

/-- The magnitude as a number. -/
def value (b : Binary) : ℚ := b.significand * 2 ^ b.exponent

/-- A quarter of the distance to the next double. -/
def quarter (b : Binary) : ℚ := 2 ^ (b.exponent - 2)

/-- How many quarters the interval goes down. -/
def below (b : Binary) : ℕ :=
  if b.significand = 2 ^ 52 ∧ b.exponent > -1074 then 1 else 2

/-- Where the interval starts. -/
def low (b : Binary) : ℚ := (4 * b.significand - b.below : ℕ) * b.quarter

/-- Where the interval ends. -/
def high (b : Binary) : ℚ := (4 * b.significand + 2 : ℕ) * b.quarter

/-- **The number rounds to the double.** -/
def Reads (b : Binary) (x : ℚ) : Prop :=
  if b.significand % 2 = 0 then b.low ≤ x ∧ x ≤ b.high else b.low < x ∧ x < b.high

/-- The magnitude of a double that is neither zero nor infinite. -/
structure Normal (b : Binary) : Prop where
  pos : 0 < b.significand
  small : b.significand < 2 ^ 53
  lowest : -1074 ≤ b.exponent
  /-- The significand is as large as it can be. -/
  tight : 2 ^ 52 ≤ b.significand ∨ b.exponent = -1074

theorem quarter_pos (b : Binary) : 0 < b.quarter := zpow_pos (by norm_num) _

theorem value_eq (b : Binary) : b.value = (4 * b.significand : ℕ) * b.quarter := by
  have hsplit : (2 : ℚ) ^ b.exponent = 2 ^ (b.exponent - 2) * 2 ^ (2 : ℤ) := by
    rw [← zpow_add₀ (by norm_num)]
    congr 1
    omega
  rw [value, quarter, hsplit]
  push_cast
  ring

theorem below_le (b : Binary) : b.below ≤ 2 := by
  rw [below]
  split <;> omega

theorem Reads.bounds (h : b.Reads x) : b.low ≤ x ∧ x ≤ b.high := by
  rw [Reads] at h
  split at h
  · exact h
  · exact ⟨h.1.le, h.2.le⟩

theorem Reads.even_of_low (h : b.Reads x) (hx : x = b.low) : b.significand % 2 = 0 := by
  rw [Reads] at h
  split at h
  · assumption
  · exact absurd hx h.1.ne'

theorem Reads.even_of_high (h : b.Reads x) (hx : x = b.high) : b.significand % 2 = 0 := by
  rw [Reads] at h
  split at h
  · assumption
  · exact absurd hx h.2.ne

theorem reads_of_strict (hlow : b.low < x) (hhigh : x < b.high) : b.Reads x := by
  rw [Reads]
  split
  · exact ⟨hlow.le, hhigh.le⟩
  · exact ⟨hlow, hhigh⟩

theorem low_pos (hb : b.Normal) : 0 < b.low := by
  have hpos := hb.pos
  have hbelow := b.below_le
  have hquarters : 0 < 4 * b.significand - b.below := by omega
  exact mul_pos (Nat.cast_pos.mpr hquarters) b.quarter_pos

/-- Both ends of the interval are far away, compared with the double. -/
theorem ends_far (hb : b.Normal) :
    b.low ≤ b.value - b.value / 2 ^ 54 ∧ b.value + b.value / 2 ^ 54 < b.high := by
  have hquarter := b.quarter_pos
  have hpos : 0 < b.significand := hb.pos
  have hsmall : b.significand < 2 ^ 53 := hb.small
  have hvalue := b.value_eq
  have hupper : b.value < 2 ^ 55 * b.quarter := by
    rw [hvalue]
    refine mul_lt_mul_of_pos_right ?_ hquarter
    exact_mod_cast show 4 * b.significand < 2 ^ 55 by omega
  have hlow : b.low = b.value - b.below * b.quarter := by
    have hbelow := b.below_le
    rw [low, hvalue, Nat.cast_sub (by omega)]
    ring
  have hhigh : b.high = b.value + 2 * b.quarter := by
    rw [high, hvalue]
    push_cast
    ring
  constructor
  · rw [hlow, below]
    by_cases hpower : b.significand = 2 ^ 52 ∧ b.exponent > -1074
    · rw [if_pos hpower, Nat.cast_one]
      rw [hpower.1] at hvalue
      push_cast at hvalue
      linarith
    · rw [if_neg hpower, Nat.cast_ofNat]
      linarith
  · linarith

theorem Reads.pos (hb : b.Normal) (h : b.Reads x) : 0 < x := lt_of_lt_of_le (low_pos hb) h.bounds.1

/-! ## Two intervals -/

/-- The ends of two intervals in quarters of the finer one.  If they touch, one of the two
significands is odd. -/
theorem ends_apart (hb : b.Normal) (hc : c.Normal) (k : ℕ)
    (hexponent : c.exponent = b.exponent + k) (hlt : k = 0 → b.significand < c.significand) :
    4 * b.significand + 2 ≤ (4 * c.significand - c.below) * 2 ^ k ∧
      (4 * b.significand + 2 = (4 * c.significand - c.below) * 2 ^ k →
        ¬(b.significand % 2 = 0 ∧ c.significand % 2 = 0)) := by
  have hsmall := hb.small
  have hlowest := hb.lowest
  have htight := hb.tight
  have htight' := hc.tight
  rcases Nat.eq_zero_or_pos k with rfl | hk
  · have hless := hlt rfl
    have hbelow : c.below = 2 := by
      rw [below, if_neg]
      omega
    rw [hbelow]
    omega
  · -- The coarser double is at least as large as all finer ones.
    have hlarge : 2 ^ 54 - 1 ≤ 4 * c.significand - c.below := by
      rw [below]
      split <;> omega
    have hpow : 2 ≤ 2 ^ k := by
      calc 2 = 2 ^ 1 := rfl
        _ ≤ 2 ^ k := Nat.pow_le_pow_right (by decide) hk
    have hproduct : (2 ^ 54 - 1) * 2 ≤ (4 * c.significand - c.below) * 2 ^ k :=
      Nat.mul_le_mul hlarge hpow
    omega

theorem high_le_low (hb : b.Normal) (hc : c.Normal) {k : ℕ}
    (hexponent : c.exponent = b.exponent + k) (hlt : k = 0 → b.significand < c.significand) :
    b.high ≤ c.low ∧ (b.high = c.low → ¬(b.significand % 2 = 0 ∧ c.significand % 2 = 0)) := by
  obtain ⟨hle, htouch⟩ := ends_apart hb hc k hexponent hlt
  have hquarter : c.quarter = (2 ^ k : ℕ) * b.quarter := by
    rw [quarter, quarter, hexponent, Nat.cast_pow, Nat.cast_ofNat, ← zpow_natCast,
      ← zpow_add₀ (by norm_num)]
    congr 1
    omega
  have hlow : c.low = ((4 * c.significand - c.below) * 2 ^ k : ℕ) * b.quarter := by
    rw [low, hquarter, ← mul_assoc, ← Nat.cast_mul]
  rw [high, hlow]
  constructor
  · exact mul_le_mul_of_nonneg_right (Nat.cast_le.mpr hle) b.quarter_pos.le
  · intro heq
    exact htouch (Nat.cast_injective (mul_right_cancel₀ b.quarter_pos.ne' heq))

/-- **No number rounds to two doubles.** -/
theorem reads_unique (hb : b.Normal) (hc : c.Normal) (hx : b.Reads x) (hx' : c.Reads x) :
    b.significand = c.significand ∧ b.exponent = c.exponent := by
  have hapart : ∀ {b c : Binary}, b.Normal → c.Normal → b.Reads x → c.Reads x → ∀ k : ℕ,
      c.exponent = b.exponent + k → ¬(k = 0 → b.significand < c.significand) := by
    intro b c hb hc hx hx' k hexponent hlt
    obtain ⟨hle, htouch⟩ := high_le_low hb hc hexponent hlt
    have hends : x = b.high := le_antisymm hx.bounds.2 (hle.trans hx'.bounds.1)
    have hends' : x = c.low := le_antisymm (hx.bounds.2.trans hle) hx'.bounds.1
    exact htouch (hends ▸ hends') ⟨hx.even_of_high hends, hx'.even_of_low hends'⟩
  have hexponent : b.exponent = c.exponent := by
    by_contra hne
    rcases lt_or_gt_of_ne hne with hlt | hgt
    · exact hapart hb hc hx hx' (c.exponent - b.exponent).toNat (by omega) (by omega)
    · exact hapart hc hb hx' hx (b.exponent - c.exponent).toNat (by omega) (by omega)
  refine ⟨?_, hexponent⟩
  by_contra hne
  rcases lt_or_gt_of_ne hne with hlt | hgt
  · exact hapart hb hc hx hx' 0 (by omega) fun _ => hlt
  · exact hapart hc hb hx' hx 0 (by omega) fun _ => hgt

end Binary

namespace Decimal
open Binary
variable {b : Binary}

/-! ## Over one denominator -/

theorem zpow_mul_pow (base : ℕ) (hbase : 0 < base) (e : ℤ) :
    (base : ℚ) ^ e * (base ^ (-e).toNat : ℕ) = (base ^ e.toNat : ℕ) := by
  have hne : (base : ℚ) ≠ 0 := Nat.cast_ne_zero.mpr hbase.ne'
  rw [Nat.cast_pow, Nat.cast_pow, ← zpow_natCast, ← zpow_natCast, ← zpow_add₀ hne]
  congr 1
  omega

theorem ofBinary_scale (b : Binary) :
    (Neighbourhood.ofBinary b).scale = 4 * 2 ^ (-b.exponent).toNat :=
  Nat.shiftLeft_eq ..

theorem scale_pos (b : Binary) : 0 < (Neighbourhood.ofBinary b).scale := by
  rw [ofBinary_scale]
  exact Nat.mul_pos (by decide) (Nat.two_pow_pos _)

/-- The scale of a neighbourhood turns quarters into whole numbers. -/
theorem quarter_mul_scale (b : Binary) :
    b.quarter * (Neighbourhood.ofBinary b).scale = (1 <<< b.exponent.toNat : ℕ) := by
  have hquarter : b.quarter * 4 = 2 ^ b.exponent := by
    rw [quarter, show (4 : ℚ) = 2 ^ (2 : ℤ) by norm_num, ← zpow_add₀ (by norm_num)]
    congr 1
    omega
  have hpow : (2 : ℚ) ^ b.exponent * (2 ^ (-b.exponent).toNat : ℕ) = (2 ^ b.exponent.toNat : ℕ) :=
    zpow_mul_pow 2 (by decide) b.exponent
  rw [Nat.one_shiftLeft, ← hpow, ofBinary_scale, Nat.cast_mul, ← mul_assoc]
  exact congrArg (· * _) hquarter

theorem ofBinary_low (b : Binary) :
    ((Neighbourhood.ofBinary b).low : ℚ) = b.low * (Neighbourhood.ofBinary b).scale := by
  rw [low, mul_assoc, quarter_mul_scale, ← Nat.cast_mul]
  rfl

theorem ofBinary_value (b : Binary) :
    ((Neighbourhood.ofBinary b).value : ℚ) = b.value * (Neighbourhood.ofBinary b).scale := by
  rw [value_eq, mul_assoc, quarter_mul_scale, ← Nat.cast_mul]
  rfl

theorem ofBinary_high (b : Binary) :
    ((Neighbourhood.ofBinary b).high : ℚ) = b.high * (Neighbourhood.ofBinary b).scale := by
  rw [high, mul_assoc, quarter_mul_scale, ← Nat.cast_mul]
  rfl

/-- Powers of ten of either sign as factors on the two sides. -/
theorem mul_unit_le_iff {x : ℚ} {n scale k : ℕ} (hscale : 0 < scale) (hn : (n : ℚ) = x * scale)
    (e : ℤ) :
    (n * 10 ^ (-e).toNat ≤ k * (scale * 10 ^ e.toNat) ↔ x ≤ k * 10 ^ e) ∧
      (k * (scale * 10 ^ e.toNat) ≤ n * 10 ^ (-e).toNat ↔ k * 10 ^ e ≤ x) := by
  have hpos : (0 : ℚ) < scale * (10 ^ (-e).toNat : ℕ) := by positivity
  have hleft : ((n * 10 ^ (-e).toNat : ℕ) : ℚ) = x * (scale * (10 ^ (-e).toNat : ℕ)) := by
    rw [Nat.cast_mul, hn, mul_assoc]
  have hright : ((k * (scale * 10 ^ e.toNat) : ℕ) : ℚ) =
      k * 10 ^ e * (scale * (10 ^ (-e).toNat : ℕ)) := by
    have hpow : (10 : ℚ) ^ e * (10 ^ (-e).toNat : ℕ) = (10 ^ e.toNat : ℕ) :=
      zpow_mul_pow 10 (by decide) e
    rw [Nat.cast_mul, Nat.cast_mul, ← hpow]
    ring
  constructor
  · rw [← Nat.cast_le (α := ℚ), hleft, hright, mul_le_mul_iff_left₀ hpos]
  · rw [← Nat.cast_le (α := ℚ), hleft, hright, mul_le_mul_iff_left₀ hpos]

/-- The neighbourhood of a double over a finer denominator, which suits a grid. -/
def finer (b : Binary) (e : ℤ) : Neighbourhood :=
  let n := Neighbourhood.ofBinary b
  let unit := 10 ^ (-e).toNat
  ⟨n.low * unit, n.value * unit, n.high * unit, n.scale * unit, n.closed⟩

/-- One step of the grid over that denominator. -/
def step (b : Binary) (e : ℤ) : ℕ := (Neighbourhood.ofBinary b).scale * 10 ^ e.toNat

/-- **What a neighbourhood contains rounds to the double.** -/
theorem contains_iff (b : Binary) (k : ℕ) (e : ℤ) :
    (finer b e).contains (k * step b e) = true ↔ b.Reads (k * 10 ^ e) := by
  have hlow := mul_unit_le_iff (k := k) (scale_pos b) (ofBinary_low b) e
  have hhigh := mul_unit_le_iff (k := k) (scale_pos b) (ofBinary_high b) e
  rw [Reads, Neighbourhood.contains]
  by_cases heven : b.significand % 2 = 0
  · have hclosed : (finer b e).closed = true := decide_eq_true heven
    rw [if_pos hclosed, if_pos heven, Bool.and_eq_true, decide_eq_true_eq, decide_eq_true_eq]
    exact and_congr hlow.1 hhigh.2
  · have hopen : ¬(finer b e).closed = true := fun h => heven (of_decide_eq_true h)
    rw [if_neg hopen, if_neg heven, Bool.and_eq_true, decide_eq_true_eq, decide_eq_true_eq]
    exact and_congr (lt_iff_lt_of_le_iff_le hlow.2) (lt_iff_lt_of_le_iff_le hhigh.1)

/-! ## The search -/

/-- The point of a grid next below the double. -/
def pointBelow (b : Binary) (e : ℤ) : ℕ := (finer b e).value / step b e

/-- The double lies between this point and the next one. -/
theorem pointBelow_spec (b : Binary) (e : ℤ) :
    pointBelow b e * 10 ^ e ≤ b.value ∧ b.value < (pointBelow b e + 1 : ℕ) * 10 ^ e := by
  have hstep : 0 < step b e := Nat.mul_pos (scale_pos b) (Nat.pow_pos (by decide))
  have hcompare (k : ℕ) := (mul_unit_le_iff (k := k) (scale_pos b) (ofBinary_value b) e).2
  constructor
  · exact (hcompare _).mp (Nat.div_mul_le_self _ _)
  · refine (lt_iff_lt_of_le_iff_le (hcompare _)).mp ?_
    exact Nat.lt_mul_of_div_lt (Nat.lt_succ_self _) hstep

/-- What a grid comes to, by whether the points on the two sides of the double round to it. -/
def choice (b : Binary) (e : ℤ) : Bool → Bool → Option Decimal
  | false, false => none
  | true, false => some ⟨pointBelow b e, e⟩
  | false, true => some ⟨pointBelow b e + 1, e⟩
  | true, true =>
      if (pointBelow b e + 1) * step b e - (finer b e).value ≤
        (finer b e).value - pointBelow b e * step b e
      then some ⟨pointBelow b e + 1, e⟩ else some ⟨pointBelow b e, e⟩

theorem onGrid?_eq (b : Binary) (e : ℤ) : (Neighbourhood.ofBinary b).onGrid? e =
    choice b e ((finer b e).contains (pointBelow b e * step b e))
      ((finer b e).contains ((pointBelow b e + 1) * step b e)) := rfl

/-- **On one grid** the points on the two sides of the double are tried. -/
theorem onGrid?_spec (b : Binary) (e : ℤ) :
    (∃ k : ℕ, (Neighbourhood.ofBinary b).onGrid? e = some ⟨k, e⟩ ∧ b.Reads (k * 10 ^ e)) ∨
      ((Neighbourhood.ofBinary b).onGrid? e = none ∧ ¬b.Reads (pointBelow b e * 10 ^ e) ∧
        ¬b.Reads ((pointBelow b e + 1 : ℕ) * 10 ^ e)) := by
  have hlower := contains_iff b (pointBelow b e) e
  have hupper := contains_iff b (pointBelow b e + 1) e
  rw [onGrid?_eq]
  cases hl : (finer b e).contains (pointBelow b e * step b e) <;>
    cases hu : (finer b e).contains ((pointBelow b e + 1) * step b e) <;>
    rw [hl] at hlower <;> rw [hu] at hupper <;> rw [choice]
  · exact .inr ⟨rfl, fun h => Bool.false_ne_true (hlower.mpr h),
      fun h => Bool.false_ne_true (hupper.mpr h)⟩
  · exact .inl ⟨_, rfl, hupper.mp rfl⟩
  · exact .inl ⟨_, rfl, hlower.mp rfl⟩
  · split
    · exact .inl ⟨_, rfl, hupper.mp rfl⟩
    · exact .inl ⟨_, rfl, hlower.mp rfl⟩

/-- **A fine grid has a point that rounds to the double**: the nearer one of the two. -/
theorem reads_of_fine (hb : b.Normal) {e : ℤ} (hfine : 10 ^ 16 * (10 : ℚ) ^ e ≤ b.value) :
    b.Reads (pointBelow b e * 10 ^ e) ∨ b.Reads ((pointBelow b e + 1 : ℕ) * 10 ^ e) := by
  obtain ⟨hbelow, habove⟩ := pointBelow_spec b e
  obtain ⟨hlow, hhigh⟩ := ends_far hb
  have hstep : (0 : ℚ) < 10 ^ e := zpow_pos (by norm_num) _
  push_cast at habove ⊢
  rcases le_total (b.value - pointBelow b e * 10 ^ e) (10 ^ e / 2) with hnear | hfar
  · refine .inl (reads_of_strict ?_ ?_)
    · linarith
    · linarith
  · refine .inr (reads_of_strict ?_ ?_)
    · linarith
    · linarith

/-! ## Seventeen digits -/

theorem length_toDigits_spec {n : ℕ} (hn : 0 < n) :
    10 ^ ((Nat.toDigits 10 n).length - 1) ≤ n ∧ n < 10 ^ (Nat.toDigits 10 n).length := by
  have hlength : 0 < (Nat.toDigits 10 n).length := Nat.length_toDigits_pos
  constructor
  · rcases Nat.eq_zero_or_pos ((Nat.toDigits 10 n).length - 1) with hone | hmore
    · rw [hone]
      exact hn
    · refine Nat.le_of_not_lt fun hless => ?_
      have hshort := (Nat.length_toDigits_le_iff (by decide) hmore).mpr hless
      omega
  · exact (Nat.length_toDigits_le_iff (by decide) hlength).mp (Nat.le_refl _)

/-- **The position of the point** is not too far to the right. -/
theorem le_of_pointPosition (hb : b.Normal) :
    (10 : ℚ) ^ ((Neighbourhood.ofBinary b).pointPosition - 1) ≤ b.value := by
  have hvalue := ofBinary_value b
  have hscale := scale_pos b
  have hscale' : (0 : ℚ) < (Neighbourhood.ofBinary b).scale := Nat.cast_pos.mpr hscale
  have hpos : 0 < (Neighbourhood.ofBinary b).value := by
    rw [← Nat.cast_pos (α := ℚ), hvalue, value_eq]
    have hquarters : 0 < 4 * b.significand := Nat.mul_pos (by decide) hb.pos
    exact mul_pos (mul_pos (Nat.cast_pos.mpr hquarters) b.quarter_pos) hscale'
  generalize Neighbourhood.ofBinary b = n at *
  have hsmall (k : ℕ) (h : n.scale ≤ n.value * 10 ^ k) : (10 : ℚ) ^ (-k : ℤ) ≤ b.value := by
    have hcast : (n.scale : ℚ) ≤ b.value * n.scale * 10 ^ k := by
      rw [← hvalue]
      exact_mod_cast h
    rw [zpow_neg, zpow_natCast, inv_le_iff_one_le_mul₀ (by positivity)]
    refine le_of_mul_le_mul_right ?_ hscale'
    linarith
  rw [Neighbourhood.pointPosition]
  by_cases hlarge : n.scale ≤ n.value
  · rw [if_pos hlarge]
    have hdigits := (length_toDigits_spec (Nat.div_pos hlarge hscale)).1
    have hlength : 0 < (Nat.toDigits 10 (n.value / n.scale)).length := Nat.length_toDigits_pos
    generalize (Nat.toDigits 10 (n.value / n.scale)).length = k at hdigits hlength ⊢
    have hpower : 10 ^ (k - 1) * n.scale ≤ n.value :=
      (Nat.mul_le_mul_right _ hdigits).trans (Nat.div_mul_le_self _ _)
    have hcast : (10 : ℚ) ^ (k - 1) * n.scale ≤ b.value * n.scale := by
      rw [← hvalue]
      exact_mod_cast hpower
    rw [show (k : ℤ) - 1 = (k - 1 : ℕ) by omega, zpow_natCast]
    exact le_of_mul_le_mul_right hcast hscale'
  · rw [if_neg hlarge]
    have hdigits := (length_toDigits_spec
      (Nat.div_pos (Nat.le_of_lt (Nat.lt_of_not_le hlarge)) hpos)).2
    have hlength : 0 < (Nat.toDigits 10 (n.scale / n.value)).length := Nat.length_toDigits_pos
    generalize (Nat.toDigits 10 (n.scale / n.value)).length = k at hdigits hlength ⊢
    dsimp only
    by_cases hexact : n.value * Nat.pow 10 (k - 1) = n.scale
    · rw [if_pos hexact, show 2 - (k : ℤ) - 1 = -(k - 1 : ℕ) by omega]
      exact hsmall (k - 1) (Nat.le_of_eq hexact.symm)
    · rw [if_neg hexact, show 1 - (k : ℤ) - 1 = -k by omega]
      refine hsmall k (Nat.le_of_lt ?_)
      rw [Nat.mul_comm]
      exact (Nat.div_lt_iff_lt_mul hpos).mp hdigits

theorem value_stripZeros (fuel : ℕ) (d : Decimal) : (stripZeros fuel d).value = d.value := by
  induction fuel generalizing d with
  | zero => rfl
  | succ fuel ih =>
      rw [stripZeros]
      split
      · rename_i hzero
        have hdigits : d.digits = d.digits / 10 * 10 := by omega
        rw [ih, value, value, zpow_add_one₀ (by norm_num)]
        conv_rhs => rw [hdigits]
        push_cast
        ring
      · rfl

/-- **The shortest decimal of a double rounds to it.** -/
theorem shortest_reads (hb : b.Normal) : b.Reads (shortest b).value := by
  rw [shortest, if_neg hb.pos.ne']
  dsimp only
  rw [value_stripZeros]
  have hpoint := le_of_pointPosition hb
  generalize (Neighbourhood.ofBinary b).pointPosition = point at hpoint ⊢
  cases hfound : (List.range 17).findSome? fun count : ℕ =>
      (Neighbourhood.ofBinary b).onGrid? (point - ((count : ℤ) + 1)) with
  | some d =>
      obtain ⟨count, -, hcount⟩ := List.exists_of_findSome?_eq_some hfound
      rcases onGrid?_spec b (point - ((count : ℤ) + 1)) with ⟨k, hsome, hreads⟩ | ⟨hnone, -⟩
      · rw [hsome] at hcount
        cases hcount
        exact hreads
      · rw [hnone] at hcount
        cases hcount
  | none =>
      -- The last grid is fine enough.
      exfalso
      have hnone := List.findSome?_eq_none_iff.mp hfound 16 (by decide)
      rcases onGrid?_spec b (point - (((16 : ℕ) : ℤ) + 1)) with ⟨k, hsome, -⟩ | ⟨-, hneither⟩
      · rw [hsome] at hnone
        cases hnone
      · have hfine : 10 ^ 16 * (10 : ℚ) ^ (point - (((16 : ℕ) : ℤ) + 1)) ≤ b.value := by
          rw [← zpow_natCast, ← zpow_add₀ (by norm_num)]
          convert hpoint using 2
          omega
        rcases reads_of_fine hb hfine with hbelow | habove
        · exact hneither.1 hbelow
        · exact hneither.2 habove

end Decimal
end Placement
