import Cadence.Binary64.Basic

namespace Cadence

def roundHalfEven (num den : Nat) : Nat :=
  let quotient := num / den
  let rest := num % den
  if 2 * rest < den then quotient
  else if den < 2 * rest then quotient + 1
  else quotient + quotient % 2

namespace Binary64

/-- The code nearest to `num / den` units. The quotient is rounded to 53 significant bits, or to a
whole number of units if it has fewer; a carry out of the fraction lands in the exponent, where
the next code is. -/
def nearestCode (num den : Nat) : Nat :=
  let shift := (num / den).log2 - 52
  min infinityCode (shift * binade + roundHalfEven num (den <<< shift))

def ofQuotient (num den : Nat) : Binary64 :=
  ofCode false (nearestCode (num * unitsPerOne) den)

def ofNat (n : Nat) : Binary64 := ofQuotient n 1

end Binary64

end Cadence
