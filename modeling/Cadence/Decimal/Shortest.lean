import Cadence.Binary64.Basic
import Cadence.Decimal.Digits

namespace Cadence.Decimal

inductive Tie
  | up
  | even
deriving DecidableEq

structure Scientific where
  significand : Nat
  exponent : Int
deriving DecidableEq

/-- The real numbers that round to a positive double, in quarters of a unit: from half the gap
below it to half the gap above it. The ends tie, so they belong to it if its fraction is even. -/
structure Basin where
  low : Nat
  high : Nat
  closed : Bool

def basin (code : Nat) : Basin :=
  let exponent := code / Binary64.binade
  let gap := 1 <<< (exponent - 1)
  let middle := 4 * Binary64.unitsOfCode code
  let below := if code % Binary64.binade = 0 ∧ 1 < exponent then gap else 2 * gap
  { low := middle - below, high := middle + 2 * gap, closed := code % 2 = 0 }

def Basin.holds (b : Basin) (num den : Nat) : Bool :=
  if b.closed then b.low * den ≤ num && num ≤ b.high * den
  else b.low * den < num && num < b.high * den

def leadingPlace (units : Nat) : Int :=
  if Binary64.unitsPerOne ≤ units then (digits (units / Binary64.unitsPerOne)).length
  else 1 - ((digits ((Binary64.unitsPerOne - 1) / units)).length : Int)

def neighbour? (tie : Tie) (code : Nat) (exponent : Int) : Option Nat :=
  let b := basin code
  -- the grid's spacing is `step / shrink` units
  let step := Binary64.unitsPerOne * tenTo exponent.toNat
  let shrink := tenTo (-exponent).toNat
  let scaled := Binary64.unitsOfCode code * shrink
  let below := scaled / step
  let rest := scaled % step
  let above := below + 1
  let belowHolds := b.holds (4 * step * below) shrink
  let aboveHolds := b.holds (4 * step * above) shrink
  if belowHolds && aboveHolds then
    if 2 * rest < step then some below
    else if step < 2 * rest then some above
    else match tie with
      | .up => some above
      | .even => some (below + below % 2)
  else if belowHolds then some below
  else if aboveHolds then some above
  else none

def Scientific.strip (s : Scientific) : Scientific :=
  if h : s.significand = 0 ∨ s.significand % 10 ≠ 0 then s
  else Scientific.strip ⟨s.significand / 10, s.exponent + 1⟩
termination_by s.significand
decreasing_by omega

/-- The shortest decimal of a positive finite double; seventeen digits always suffice. For each
number of digits the only candidates are the two neighbours of the double on that decimal grid: if
any point of the grid rounds to the double, one of these does. -/
def shortest (tie : Tie) (code : Nat) : Scientific :=
  let place := leadingPlace (Binary64.unitsOfCode code)
  let found := (List.range 17).findSome? fun k =>
    let exponent := place - (k + 1 : Nat)
    (neighbour? tie code exponent).map fun significand => Scientific.mk significand exponent
  (found.getD ⟨0, 0⟩).strip

end Cadence.Decimal
