namespace Cadence.Decimal

def tenTo (n : Nat) : Nat := Nat.pow 10 n

def digits (n : Nat) : List Nat :=
  if n < 10 then [n] else digits (n / 10) ++ [n % 10]

def digitChar (d : Nat) : Char := Char.ofNat (48 + d)

def digit? (c : Char) : Option Nat :=
  if '0' ≤ c ∧ c ≤ '9' then some (c.toNat - 48) else none

def chars (n : Nat) : List Char := (digits n).map digitChar

def text (n : Nat) : String := String.ofList (chars n)

def paddedDigits : Nat → Nat → List Nat
  | 0, _ => []
  | width + 1, n => paddedDigits width (n / 10) ++ [n % 10]

end Cadence.Decimal
