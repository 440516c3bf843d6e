import Cadence.Decimal.Shortest

namespace Cadence.Decimal

structure Layout where
  tie : Tie
  leastPlain : Int
  greatestPlain : Int
  plusSign : Bool

def described : Layout :=
  { tie := .up, leastPlain := -4, greatestPlain := 15, plusSign := false }

def documented : Layout :=
  { tie := .even, leastPlain := -5, greatestPlain := 15, plusSign := true }

def Scientific.plain (s : Scientific) : List Char :=
  let ds := chars s.significand
  match s.exponent with
  | .ofNat zeros => ds ++ List.replicate zeros '0' ++ ['.', '0']
  | .negSucc k =>
    let places := k + 1
    if places < ds.length then
      ds.take (ds.length - places) ++ '.' :: ds.drop (ds.length - places)
    else
      '0' :: '.' :: List.replicate (places - ds.length) '0' ++ ds

def Scientific.leading (s : Scientific) : Int :=
  s.exponent + (digits s.significand).length - 1

def Layout.exponent (l : Layout) (e : Int) : List Char :=
  (if e < 0 then ['-'] else if l.plusSign then ['+'] else []) ++ chars e.natAbs

def Scientific.withExponent (s : Scientific) (l : Layout) : List Char :=
  let mantissa := match chars s.significand with
    | d :: [] => [d]
    | d :: ds => d :: '.' :: ds
    | [] => []
  mantissa ++ 'e' :: l.exponent s.leading

def Scientific.laidOut (s : Scientific) (l : Layout) : List Char :=
  if l.leastPlain ≤ s.leading ∧ s.leading ≤ l.greatestPlain then s.plain
  else s.withExponent l

def Layout.chars (l : Layout) (x : Binary64) : List Char :=
  if x.isNaN then ['N', 'a', 'N']
  else
    (if x.isNegative then ['-'] else []) ++
      if x.isInfinite then ['i', 'n', 'f']
      else if x.isZero then ['0', '.', '0']
      else (shortest l.tie x.code).laidOut l

def Layout.text (l : Layout) (x : Binary64) : String := String.ofList (l.chars x)

end Cadence.Decimal
