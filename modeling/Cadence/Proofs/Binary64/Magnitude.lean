import Cadence.Binary64.Arithmetic
import Cadence.Proofs.Binary64.Order

namespace Cadence.Binary64

section

variable {c d : Nat}

theorem code_ofCode (number : c ≤ infinityCode) : (ofCode false c).code = c := by
  rw [infinityCode, binade] at number
  rw [code, ofCode, signOffset, if_neg Bool.false_ne_true, UInt64.toNat_ofNat']
  omega

theorem isNegative_ofCode (number : c ≤ infinityCode) : (ofCode false c).isNegative = false := by
  rw [infinityCode, binade] at number
  rw [isNegative, ofCode, signOffset, if_neg Bool.false_ne_true, UInt64.toNat_ofNat',
    decide_eq_false_iff_not]
  omega

theorem isNaN_ofCode (number : c ≤ infinityCode) : (ofCode false c).isNaN = false := by
  rw [isNaN, code_ofCode number, decide_eq_false_iff_not]
  omega

theorem isFinite_ofCode (number : c ≤ infinityCode) :
    (ofCode false c).isFinite = decide (c < infinityCode) := by
  rw [isFinite, code_ofCode number]

theorem isInfinite_ofCode (finite : c < infinityCode) : (ofCode false c).isInfinite = false := by
  rw [isInfinite, code_ofCode finite.le, decide_eq_false_iff_not]
  omega

theorem isZero_ofCode (number : c ≤ infinityCode) : (ofCode false c).isZero = decide (c = 0) := by
  rw [isZero, code_ofCode number]

theorem units_ofCode (number : c ≤ infinityCode) : (ofCode false c).units = unitsOfCode c := by
  rw [units, code_ofCode number]

theorem value_ofCode (number : c ≤ infinityCode) :
    (ofCode false c).value = unitsOfCode c / unitsPerOne := by
  rw [value_eq, signedUnits, isNegative_ofCode number, if_neg Bool.false_ne_true,
    units_ofCode number, Int.cast_natCast]

end

def wholeCode (n : Nat) : Nat := nearestCode (n * unitsPerOne) 1

def sumCode (c d : Nat) : Nat := nearestCode (unitsOfCode c + unitsOfCode d) 1

def quotientCode (c d : Nat) : Nat := nearestCode (unitsOfCode c * unitsPerOne) (unitsOfCode d)

theorem ofNat_eq (n : Nat) : ofNat n = ofCode false (wholeCode n) := rfl

theorem unitsPerOne_eq_pow {zeros : Nat} (here : zeros = 1074) : unitsPerOne = 2 ^ zeros := by
  rw [← Nat.one_shiftLeft, here]
  rfl

theorem unitsOfCode_zero : unitsOfCode 0 = 0 := rfl

theorem unitsOfCode_pos {c : Nat} (positive : 0 < c) : 0 < unitsOfCode c :=
  unitsOfCode_strictMono positive

theorem add_ofCode {c d : Nat} (finite : c < infinityCode) (finite' : d < infinityCode) :
    ofCode false c + ofCode false d = ofCode false (sumCode c d) := by
  change add _ _ = _
  have sum : (ofCode false c).signedUnits + (ofCode false d).signedUnits =
      ((unitsOfCode c + unitsOfCode d : Nat) : Int) := by
    rw [signedUnits, signedUnits, isNegative_ofCode finite.le, isNegative_ofCode finite'.le,
      units_ofCode finite.le, units_ofCode finite'.le, Nat.cast_add]
    rfl
  simp only [add, isNaN_ofCode finite.le, isNaN_ofCode finite'.le, isInfinite_ofCode finite,
    isInfinite_ofCode finite', isNegative_ofCode finite.le, Bool.or_false, Bool.false_and,
    Bool.false_eq_true, ↓reduceIte, sum]
  split
  · rename_i zero
    rw [sumCode, Int.ofNat_eq_zero.mp zero]
    rfl
  · rw [decide_eq_false (by omega), Int.natAbs_natCast, sumCode]

theorem infinity_add {d : Nat} (number : d ≤ infinityCode) :
    infinity + ofCode false d = infinity := by
  change add _ _ = _
  have infinite : infinity.isInfinite = true := by decide
  have defined : infinity.isNaN = false := by decide
  have signless : infinity.isNegative = false := by decide
  simp only [add, infinite, defined, signless, isNaN_ofCode number, isNegative_ofCode number,
    Bool.or_false, bne_self_eq_false, Bool.and_false, Bool.false_eq_true, ↓reduceIte]

theorem div_ofCode {c d : Nat} (finite : c < infinityCode) (positive : 0 < d)
    (finite' : d < infinityCode) :
    ofCode false c / ofCode false d = ofCode false (quotientCode c d) := by
  change div _ _ = _
  have divisor : (ofCode false d).isZero = false := by
    rw [isZero_ofCode finite'.le, decide_eq_false positive.ne']
  simp only [div, isNaN_ofCode finite.le, isNaN_ofCode finite'.le, isInfinite_ofCode finite,
    isInfinite_ofCode finite', isNegative_ofCode finite.le, isNegative_ofCode finite'.le, divisor,
    units_ofCode finite.le, units_ofCode finite'.le, Bool.or_false, bne_self_eq_false,
    Bool.false_eq_true, ↓reduceIte, quotientCode]

/-- What is positive is infinitely often as much as nothing. -/
theorem div_zero {c : Nat} (positive : 0 < c) (finite : c < infinityCode) :
    ofCode false c / zero = infinity := by
  change div _ (ofCode false 0) = _
  have none : (0 : Nat) < infinityCode := by decide
  have dividend : (ofCode false c).isZero = false := by
    rw [isZero_ofCode finite.le, decide_eq_false positive.ne']
  have divisor : (ofCode false 0).isZero = true := rfl
  simp only [div, isNaN_ofCode finite.le, isNaN_ofCode none.le, isInfinite_ofCode finite,
    isInfinite_ofCode none, isNegative_ofCode finite.le, isNegative_ofCode none.le, dividend,
    divisor, Bool.or_false, bne_self_eq_false, Bool.false_eq_true, ↓reduceIte, infinity]

theorem div_infinity {c : Nat} (finite : c < infinityCode) : ofCode false c / infinity = zero := by
  change div _ _ = _
  have infinite : infinity.isInfinite = true := by decide
  have defined : infinity.isNaN = false := by decide
  have signless : infinity.isNegative = false := by decide
  simp only [div, infinite, defined, signless, isNaN_ofCode finite.le, isInfinite_ofCode finite,
    isNegative_ofCode finite.le, Bool.or_false, bne_self_eq_false, Bool.false_eq_true, ↓reduceIte,
    zero]

section

variable {c c' d d' m n : Nat}

theorem wholeCode_mono (below : m ≤ n) : wholeCode m ≤ wholeCode n := by
  apply nearestCode_mono one_pos one_pos
  exact Nat.mul_le_mul_right 1 (Nat.mul_le_mul_right _ below)

theorem wholeCode_pos (some : 0 < n) : 0 < wholeCode n := by
  have least : 0 < wholeCode 1 := by decide +kernel
  exact least.trans_le (wholeCode_mono some)

theorem wholeCode_lt (fits : n ≤ 2 ^ 64) : wholeCode n < infinityCode := by
  have most : wholeCode (2 ^ 64) < infinityCode := by decide +kernel
  exact (wholeCode_mono fits).trans_lt most

theorem sumCode_mono (below : c ≤ c') (below' : d ≤ d') : sumCode c d ≤ sumCode c' d' := by
  apply nearestCode_mono one_pos one_pos
  have left := unitsOfCode_strictMono.monotone below
  have right := unitsOfCode_strictMono.monotone below'
  exact Nat.mul_le_mul_right 1 (Nat.add_le_add left right)

theorem sumCode_zero (finite : c ≤ infinityCode) : sumCode c 0 = c := by
  rw [sumCode, unitsOfCode_zero, Nat.add_zero, ← Nat.mul_one (unitsOfCode c)]
  exact nearestCode_units finite one_pos

theorem sumCode_infinity (d : Nat) : sumCode infinityCode d = infinityCode := by
  apply (nearestCode_le_infinityCode _ _).antisymm
  calc infinityCode = sumCode infinityCode 0 := (sumCode_zero le_rfl).symm
    _ ≤ sumCode infinityCode d := sumCode_mono le_rfl (Nat.zero_le d)

theorem quotientCode_mono (below : c ≤ c') (positive : 0 < d') (above : d' ≤ d) :
    quotientCode c d ≤ quotientCode c' d' := by
  apply nearestCode_mono (unitsOfCode_pos (positive.trans_le above)) (unitsOfCode_pos positive)
  have dividends := unitsOfCode_strictMono.monotone below
  have divisors := unitsOfCode_strictMono.monotone above
  exact Nat.mul_le_mul (Nat.mul_le_mul_right _ dividends) divisors

/-- Whole numbers of at most 53 binary digits are doubles. -/
theorem units_wholeCode (short : n < 2 * binade) : unitsOfCode (wholeCode n) = n * unitsPerOne := by
  obtain ⟨zeros, here⟩ : ∃ zeros, zeros = 1074 := ⟨_, rfl⟩
  obtain ⟨c, units⟩ := exists_code short zeros
  rw [← unitsPerOne_eq_pow here] at units
  have finite : c ≤ infinityCode := by
    have large : 2 * binade * unitsPerOne ≤ unitsOfCode infinityCode := by decide +kernel
    rw [← unitsOfCode_strictMono.le_iff_le, units]
    exact (Nat.mul_le_mul_right _ short.le).trans large
  rw [wholeCode, ← units, ← Nat.mul_one (unitsOfCode c), nearestCode_units finite one_pos,
    Nat.mul_one]

end

end Cadence.Binary64
