import Cadence.Binary64.Rounding

namespace Cadence.Binary64

def add (x y : Binary64) : Binary64 :=
  if x.isNaN || y.isNaN then notANumber
  else if x.isInfinite then
    if y.isInfinite && x.isNegative != y.isNegative then notANumber else x
  else if y.isInfinite then y
  else
    let sum := x.signedUnits + y.signedUnits
    -- a sum of opposite numbers is the positive zero
    if sum = 0 then ofCode (x.isNegative && y.isNegative) 0
    else ofCode (sum < 0) (nearestCode sum.natAbs 1)

def mul (x y : Binary64) : Binary64 :=
  let negative := x.isNegative != y.isNegative
  if x.isNaN || y.isNaN then notANumber
  else if x.isInfinite || y.isInfinite then
    if x.isZero || y.isZero then notANumber else ofCode negative infinityCode
  else ofCode negative (nearestCode (x.units * y.units) unitsPerOne)

def div (x y : Binary64) : Binary64 :=
  let negative := x.isNegative != y.isNegative
  if x.isNaN || y.isNaN then notANumber
  else if x.isInfinite then
    if y.isInfinite then notANumber else ofCode negative infinityCode
  else if y.isInfinite then ofCode negative 0
  else if y.isZero then
    if x.isZero then notANumber else ofCode negative infinityCode
  else ofCode negative (nearestCode (x.units * unitsPerOne) y.units)

instance : Add Binary64 := ⟨add⟩
instance : Mul Binary64 := ⟨mul⟩
instance : Div Binary64 := ⟨div⟩
instance : Neg Binary64 := ⟨neg⟩

end Cadence.Binary64
