import Cadence.Binary64.Arithmetic
import Cadence.Decimal.Digits
import Cadence.Json.Basic

namespace Cadence.Json

structure Numeral where
  negative : Bool
  whole : List Nat
  fraction : List Nat
  -- whether it is negative, and its digits
  exponent : Option (Bool × List Nat)
deriving DecidableEq

namespace Numeral

def greatestSignificand : Nat := 0xFFFFFFFFFFFFFFFF

def greatestNegative : Nat := 0x8000000000000000

def greatestExponent : Nat := 0x7FFFFFFF

structure Scaled where
  significand : Nat
  exponent : Int

def readWhole (ds : List Nat) : Scaled :=
  ds.foldl
    (fun s d =>
      if s.exponent = 0 ∧ s.significand * 10 + d ≤ greatestSignificand
      then ⟨s.significand * 10 + d, 0⟩
      else ⟨s.significand, s.exponent + 1⟩)
    ⟨0, 0⟩

def readFraction (s : Scaled) : List Nat → Scaled
  | [] => s
  | d :: ds =>
    if s.significand * 10 + d ≤ greatestSignificand
    then readFraction ⟨s.significand * 10 + d, s.exponent - 1⟩ ds
    else s

def readExponent (ds : List Nat) : Option Nat :=
  ds.foldlM
    (fun value d => if value * 10 + d ≤ greatestExponent then some (value * 10 + d) else none) 0

def powerOfTen (n : Nat) : Binary64 := .ofNat (Decimal.tenTo n)

def scaleDown (x : Binary64) (n : Nat) : Binary64 :=
  if n ≤ 308 then x / powerOfTen n
  else if x.isZero then x
  else scaleDown (x / powerOfTen 308) (n - 308)
termination_by n
decreasing_by omega

def scaleUp? (x : Binary64) (n : Nat) : Option Binary64 :=
  if n ≤ 308 then
    let product := x * powerOfTen n
    if product.isInfinite then none else some product
  else if x.isZero then some x
  else none

def Scaled.magnitude? (s : Scaled) : Option Binary64 :=
  let x := Binary64.ofNat s.significand
  match s.exponent with
  | .ofNat n => scaleUp? x n
  | .negSucc n => some (scaleDown x (n + 1))

def magnitude? (n : Numeral) : Option Binary64 :=
  let s := readFraction (readWhole n.whole) n.fraction
  match n.exponent with
  | none => s.magnitude?
  | some (negative, ds) =>
    match readExponent ds with
    | some e =>
      let exponent := if negative then s.exponent - e else s.exponent + e
      Scaled.magnitude? ⟨s.significand, exponent⟩
    -- too long an exponent leaves nothing or is out of range
    | none => if s.significand = 0 ∨ negative then some .zero else none

/-- The value of a number, unless it is out of range. The significand keeps as many leading digits
as fit in 64 bits, is rounded to a double and scaled by a power of ten that is itself a double, so
the value is near the written number and not always nearest. -/
def value? (n : Numeral) : Option Json :=
  let signed (x : Binary64) : Json := .real (if n.negative then -x else x)
  let s := readWhole n.whole
  if n.fraction = [] ∧ n.exponent = none ∧ s.exponent = 0 then
    if !n.negative then some (.integer s.significand)
    else if 0 < s.significand ∧ s.significand ≤ greatestNegative then
      some (.integer (-s.significand))
    else some (signed (.ofNat s.significand))
  else n.magnitude?.map signed

end Numeral

end Cadence.Json
