import Cadence.Binary64.Rounding
import Mathlib.Algebra.Order.Field.Rat
import Mathlib.Tactic.FieldSimp
import Mathlib.Tactic.Linarith
import Mathlib.Tactic.Positivity
import Mathlib.Tactic.Ring

namespace Cadence

/-- `z` is the integer nearest to `q`, and even if another one is as near. -/
structure RoundsTo (q : ℚ) (z : ℤ) : Prop where
  nearest : ∀ k : ℤ, |q - z| ≤ |q - k|
  even : ∀ k : ℤ, k ≠ z → |q - k| = |q - z| → Even z

namespace RoundsTo

variable {q : ℚ} {z w : ℤ}

theorem of_half (near : |q - z| ≤ 1 / 2) (tie : |q - z| = 1 / 2 → Even z) : RoundsTo q z := by
  have apart (k : ℤ) (other : k ≠ z) : 1 ≤ |q - k| + |q - z| := by
    have step : 1 ≤ |k - z| := Int.one_le_abs (sub_ne_zero.mpr other)
    calc (1 : ℚ) ≤ |(k : ℚ) - z| := by exact_mod_cast step
      _ ≤ |(k : ℚ) - q| + |q - z| := abs_sub_le _ _ _
      _ = |q - k| + |q - z| := by rw [abs_sub_comm]
  constructor
  · intro k
    by_cases same : k = z
    · rw [same]
    · linarith [apart k same]
  · intro k other equal
    apply tie
    linarith [apart k other]

theorem unique (first : RoundsTo q z) (second : RoundsTo q w) : z = w := by
  by_contra differ
  wlog lower : z < w generalizing z w
  · exact this second first (Ne.symm differ) (by omega)
  have equal : |q - z| = |q - w| := le_antisymm (first.nearest w) (second.nearest z)
  obtain ⟨a, rfl⟩ := first.even w (Ne.symm differ) equal.symm
  obtain ⟨b, rfl⟩ := second.even _ differ equal
  -- the number between two even ones is nearer than both
  have between := first.nearest (a + a + 1)
  have apart : (a : ℚ) + 1 ≤ b := by exact_mod_cast (by omega : a + 1 ≤ b)
  push_cast at equal between
  rcases abs_cases (q - (a + a)) with ⟨left, _⟩ | ⟨left, _⟩ <;>
    rcases abs_cases (q - (b + b)) with ⟨right, _⟩ | ⟨right, _⟩ <;>
    rcases abs_cases (q - (a + a + 1)) with ⟨middle, _⟩ | ⟨middle, _⟩ <;>
    linarith

theorem neg (rounds : RoundsTo q z) : RoundsTo (-q) (-z) := by
  have mirrored (k : ℤ) : |-q - k| = |q - (-k : ℤ)| := by
    rw [← abs_neg]
    congr 1
    push_cast
    ring
  constructor
  · intro k
    rw [mirrored, mirrored, neg_neg]
    exact rounds.nearest (-k)
  · intro k other equal
    rw [mirrored, mirrored, neg_neg] at equal
    exact (rounds.even (-k) (by omega) equal).neg

theorem down {f : ℚ} (positive : 0 ≤ f) (low : f < 1 / 2) (n : Nat) : RoundsTo (n + f) n := by
  have rest : (n + f : ℚ) - (n : ℤ) = f := by
    push_cast
    ring
  apply of_half
  · rw [rest, abs_of_nonneg positive]
    exact low.le
  · rw [rest, abs_of_nonneg positive]
    intro tie
    exact absurd tie low.ne

theorem up {f : ℚ} (high : 1 / 2 < f) (part : f < 1) (n : Nat) :
    RoundsTo (n + f) (n + 1 : Nat) := by
  have rest : (n + f : ℚ) - (n + 1 : Nat) = f - 1 := by
    push_cast
    ring
  apply of_half
  · rw [Int.cast_natCast, rest, abs_le]
    constructor <;> linarith
  · rw [Int.cast_natCast, rest, abs_of_neg (by linarith)]
    intro tie
    linarith

theorem tie (n : Nat) : RoundsTo (n + 1 / 2) (n + n % 2 : Nat) := by
  have even : Even ((n + n % 2 : Nat) : ℤ) := by
    rw [Int.even_coe_nat, Nat.even_iff]
    omega
  apply of_half
  · rcases Nat.mod_two_eq_zero_or_one n with parity | parity <;> rw [parity, abs_le] <;>
      push_cast <;> constructor <;> linarith
  · intro _
    exact even

end RoundsTo

theorem roundHalfEven_rounds (num : Nat) {den : Nat} (positive : 0 < den) :
    RoundsTo (num / den) (roundHalfEven num den) := by
  have scale : (0 : ℚ) < den := by exact_mod_cast positive
  have whole : (num : ℚ) / den = (num / den : Nat) + (num % den : Nat) / (den : ℚ) := by
    field_simp
    exact_mod_cast (Nat.div_add_mod num den).symm
  have small := Nat.mod_lt num positive
  rw [whole, roundHalfEven]
  generalize num / den = n
  generalize num % den = rest at small ⊢
  split
  · rename_i less
    apply RoundsTo.down (by positivity)
    rw [div_lt_div_iff₀ scale two_pos]
    exact_mod_cast (by omega : rest * 2 < 1 * den)
  · split
    · rename_i more
      apply RoundsTo.up
      · rw [div_lt_div_iff₀ two_pos scale]
        exact_mod_cast (by omega : 1 * den < rest * 2)
      · rw [div_lt_one scale]
        exact_mod_cast small
    · have half : (rest : ℚ) / den = 1 / 2 := by
        rw [div_eq_div_iff scale.ne' two_ne_zero]
        exact_mod_cast (by omega : rest * 2 = 1 * den)
      rw [half]
      exact RoundsTo.tie n

namespace Binary64

def fraction (x : Binary64) : Nat := x.bits.toNat % 2 ^ 52

def exponent (x : Binary64) : Nat := x.bits.toNat / 2 ^ 52 % 2 ^ 11

def signBit (x : Binary64) : Bool := x.bits.toNat.testBit 63

def value (x : Binary64) : ℚ :=
  let magnitude : ℚ :=
    if x.exponent = 0 then x.fraction / 2 ^ 52 * 2 ^ (-1022 : ℤ)
    else (1 + x.fraction / 2 ^ 52) * 2 ^ ((x.exponent : ℤ) - 1023)
  if x.signBit then -magnitude else magnitude

theorem code_eq (x : Binary64) : x.code = x.exponent * 2 ^ 52 + x.fraction := by
  rw [code, exponent, fraction, signOffset]
  omega

theorem exponent_eq (x : Binary64) : x.code / binade = x.exponent := by
  rw [code, exponent, signOffset, binade]
  omega

theorem isNegative_eq (x : Binary64) : x.isNegative = x.signBit := by
  have word := x.bits.toNat_lt
  rw [isNegative, signBit, Nat.testBit_eq_decide_div_mod_eq, decide_eq_decide, signOffset]
  omega

theorem isNaN_iff (x : Binary64) : x.isNaN = true ↔ x.exponent = 2047 ∧ x.fraction ≠ 0 := by
  rw [isNaN, decide_eq_true_iff, infinityCode, binade, code_eq, exponent, fraction]
  omega

theorem isInfinite_iff (x : Binary64) :
    x.isInfinite = true ↔ x.exponent = 2047 ∧ x.fraction = 0 := by
  rw [isInfinite, decide_eq_true_iff, infinityCode, binade, code_eq, exponent, fraction]
  omega

theorem cast_one_shiftLeft (m n : Nat) : ((1 <<< (m + n) : Nat) : ℚ) = 2 ^ m * 2 ^ n := by
  rw [Nat.one_shiftLeft, Nat.cast_pow, Nat.cast_ofNat, pow_add]

theorem cast_unitsPerOne : (unitsPerOne : ℚ) = 2 ^ 52 * 2 ^ 1022 := cast_one_shiftLeft 52 1022

theorem unitsPerOne_pos : 0 < unitsPerOne := by
  have positive : (0 : ℚ) < unitsPerOne := by
    rw [cast_unitsPerOne]
    positivity
  exact_mod_cast positive

theorem units_subnormal {x : Binary64} (least : x.exponent = 0) : x.units = x.fraction := by
  have code := x.code_eq
  rw [least, Nat.zero_mul, Nat.zero_add] at code
  have small : x.fraction < binade := Nat.mod_lt _ (by decide)
  rw [units, code, unitsOfCode, if_pos small]

theorem units_normal {x : Binary64} {k : Nat} (greater : x.exponent = k + 1) :
    x.units = (2 ^ 52 + x.fraction) * 2 ^ k := by
  have above : ¬ x.code < binade := by
    rw [x.code_eq, binade]
    omega
  have rest : x.code % binade = x.fraction := by
    rw [x.code_eq, binade, fraction]
    omega
  rw [units, unitsOfCode, if_neg above, exponent_eq, rest, greater, Nat.shiftLeft_eq,
    Nat.add_sub_cancel]
  rfl

theorem value_eq (x : Binary64) : x.value = x.signedUnits / unitsPerOne := by
  have magnitude : (if x.exponent = 0 then (x.fraction / 2 ^ 52 * 2 ^ (-1022 : ℤ) : ℚ)
      else (1 + x.fraction / 2 ^ 52) * 2 ^ ((x.exponent : ℤ) - 1023)) =
      x.units / unitsPerOne := by
    have least : (2 : ℚ) ^ (-1022 : ℤ) = 1 / 2 ^ 1022 := by
      rw [zpow_neg, one_div]
      rfl
    rw [cast_unitsPerOne]
    cases e : x.exponent with
    | zero =>
      rw [if_pos rfl, units_subnormal e, least]
      field_simp
    | succ k =>
      have shift : (2 : ℚ) ^ (((k + 1 : Nat) : ℤ) - 1023) = 2 ^ k * (1 / 2 ^ 1022) := by
        rw [← least, ← zpow_natCast, ← zpow_add₀ two_ne_zero]
        congr 1
        omega
      rw [if_neg (Nat.succ_ne_zero k), units_normal e, shift]
      push_cast
      field_simp
      norm_num
  rw [value, magnitude, signedUnits, isNegative_eq]
  cases x.signBit with
  | true =>
    rw [if_pos rfl, if_pos rfl, Int.cast_neg, Int.cast_natCast, neg_div]
  | false =>
    rw [if_neg Bool.false_ne_true, if_neg Bool.false_ne_true, Int.cast_natCast]

end Binary64

end Cadence
