namespace Cadence

structure Binary64 where
  bits : UInt64
deriving DecidableEq

namespace Binary64

def binade : Nat := 0x10000000000000

def infinityCode : Nat := 2047 * binade

def signOffset : Nat := 0x8000000000000000

def unitsPerOne : Nat := 1 <<< 1074

def ofCode (negative : Bool) (code : Nat) : Binary64 :=
  ⟨UInt64.ofNat (if negative then signOffset + code else code)⟩

def code (x : Binary64) : Nat := x.bits.toNat % signOffset

def isNegative (x : Binary64) : Bool := signOffset ≤ x.bits.toNat

def isNaN (x : Binary64) : Bool := infinityCode < x.code

def isInfinite (x : Binary64) : Bool := x.code = infinityCode

def isFinite (x : Binary64) : Bool := x.code < infinityCode

def isZero (x : Binary64) : Bool := x.code = 0

/-- The magnitude of a finite code, in units of the least positive double. In the first binade
a code counts those units itself; above, it is a fraction with a leading one, shifted. -/
def unitsOfCode (code : Nat) : Nat :=
  if code < binade then code
  else (binade + code % binade) <<< (code / binade - 1)

def units (x : Binary64) : Nat := unitsOfCode x.code

def signedUnits (x : Binary64) : Int := if x.isNegative then -(x.units : Int) else x.units

def zero : Binary64 := ofCode false 0

def infinity : Binary64 := ofCode false infinityCode

def notANumber : Binary64 := ofCode false (infinityCode + binade / 2)

def neg (x : Binary64) : Binary64 := ofCode (!x.isNegative) x.code

def equal (x y : Binary64) : Bool :=
  !x.isNaN && !y.isNaN && (x.bits == y.bits || (x.isZero && y.isZero))

end Binary64

end Cadence
