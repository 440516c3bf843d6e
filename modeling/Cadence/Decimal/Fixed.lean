import Cadence.Binary64.Rounding
import Cadence.Decimal.Digits

namespace Cadence.Decimal

def fixedMagnitude (places : Nat) (units : Nat) : List Char :=
  let scaled := roundHalfEven (units * tenTo places) Binary64.unitsPerOne
  chars (scaled / tenTo places) ++ '.' :: (paddedDigits places scaled).map digitChar

def fixedChars (places : Nat) (x : Binary64) : List Char :=
  if x.isNaN then ['N', 'a', 'N']
  else
    (if x.isNegative then ['-'] else []) ++
      if x.isInfinite then ['i', 'n', 'f'] else fixedMagnitude places x.units

def fixed (places : Nat) (x : Binary64) : String := String.ofList (fixedChars places x)

end Cadence.Decimal
