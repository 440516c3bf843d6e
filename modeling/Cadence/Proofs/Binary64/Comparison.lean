import Cadence.Proofs.Binary64.Magnitude
import Cadence.Proofs.Binary64.Nearest
import Mathlib.Order.WithBot

namespace Cadence.Binary64

def place (x : Binary64) : WithBot (WithTop ℚ) :=
  if x.isInfinite then (if x.signBit then ⊥ else ⊤) else ((x.value : WithTop ℚ) : WithBot _)

/-- Nothing compares with what is no number. -/
structure AtMost (x y : Binary64) : Prop where
  left : x.isNaN = false
  right : y.isNaN = false
  places : x.place ≤ y.place

instance : LE Binary64 := ⟨AtMost⟩

instance (x y : Binary64) : Decidable (x ≤ y) :=
  decidable_of_iff (x.isNaN = false ∧ y.isNaN = false ∧ x.place ≤ y.place)
    ⟨fun ⟨left, right, places⟩ => ⟨left, right, places⟩,
      fun ⟨left, right, places⟩ => ⟨left, right, places⟩⟩

-- the zeros are as great as each other; what is no number is not as great as itself
example : ofCode true 0 ≤ zero ∧ zero ≤ ofCode true 0 ∧ ofCode true infinityCode ≤ zero ∧
    ¬ infinity ≤ ofCode false (infinityCode - 1) ∧ ¬ notANumber ≤ notANumber := by
  decide +kernel

section

variable {c d e : Nat}

theorem place_infinity : infinity.place = ⊤ := by
  have infinite : infinity.isInfinite = true := by decide
  have signless : infinity.signBit = false := by rw [← isNegative_eq]; decide
  rw [place, if_pos infinite, signless]
  rfl

theorem place_ofCode (finite : c < infinityCode) :
    (ofCode false c).place = ((magnitude c : WithTop ℚ) : WithBot _) := by
  rw [place, isInfinite_ofCode finite, if_neg Bool.false_ne_true, value_ofCode finite.le]
  rfl

theorem ofCode_le_ofCode (below : c ≤ d) (number : d ≤ infinityCode) :
    ofCode false c ≤ ofCode false d := by
  constructor
  case left => exact isNaN_ofCode (below.trans number)
  case right => exact isNaN_ofCode number
  case places =>
    rcases number.lt_or_eq with finite | rfl
    · have magnitudes : magnitude c ≤ magnitude d := magnitude_strictMono.monotone below
      rw [place_ofCode (below.trans_lt finite), place_ofCode finite]
      exact_mod_cast magnitudes
    · exact le_top.trans_eq place_infinity.symm

def ratioCode (c d : Nat) : Nat :=
  if d = 0 then infinityCode else if d < infinityCode then quotientCode c d else 0

theorem div_eq_ratioCode (positive : 0 < c) (finite : c < infinityCode)
    (number : d ≤ infinityCode) :
    ofCode false c / ofCode false d = ofCode false (ratioCode c d) := by
  rw [ratioCode]
  split
  · rename_i none
    rw [none]
    exact div_zero positive finite
  · rename_i some
    split
    · rename_i finite'
      exact div_ofCode finite (Nat.pos_of_ne_zero some) finite'
    · rename_i huge
      have infinite : d = infinityCode := by omega
      rw [infinite]
      exact div_infinity finite

theorem ratioCode_zero (c : Nat) : ratioCode c 0 = infinityCode := if_pos rfl

theorem ratioCode_le (c d : Nat) : ratioCode c d ≤ infinityCode := by
  rw [ratioCode]
  split
  · exact le_rfl
  · split
    · exact nearestCode_le_infinityCode _ _
    · exact Nat.zero_le _

theorem ratioCode_antitone (c : Nat) : Antitone (ratioCode c) := by
  intro d e below
  rcases Nat.eq_zero_or_pos d with rfl | positive
  · rw [ratioCode_zero]
    exact ratioCode_le c e
  · rw [ratioCode, ratioCode, if_neg positive.ne', if_neg (positive.trans_le below).ne']
    rcases Nat.lt_or_ge e infinityCode with finite | huge
    · rw [if_pos finite, if_pos (below.trans_lt finite)]
      exact quotientCode_mono le_rfl positive below
    · rw [if_neg huge.not_gt]
      exact Nat.zero_le _

/-- The greater a divisor, the lesser the quotient. -/
theorem div_antitone (positive : 0 < c) (finite : c < infinityCode) (below : d ≤ e)
    (number : e ≤ infinityCode) :
    ofCode false c / ofCode false e ≤ ofCode false c / ofCode false d := by
  rw [div_eq_ratioCode positive finite number,
    div_eq_ratioCode positive finite (below.trans number)]
  exact ofCode_le_ofCode (ratioCode_antitone c below) (ratioCode_le c d)

end

end Cadence.Binary64
