import Cadence.Json.Numeral

namespace Cadence.Json

/-- A character of a string as written: itself, or one 16-bit unit by its number. -/
inductive Letter
  | char (c : Char)
  | unit (n : Nat)
deriving DecidableEq

inductive Token
  | openBrace
  | closeBrace
  | openBracket
  | closeBracket
  | comma
  | colon
  | null
  | bool (b : Bool)
  | numeral (n : Numeral)
  | string (letters : List Letter)
  | malformed
deriving DecidableEq

def Letter.text? : List Letter → Option (List Char)
  | [] => some []
  | .char c :: rest => (Letter.text? rest).map (c :: ·)
  | .unit high :: .unit low :: rest =>
    if 0xD800 ≤ high ∧ high < 0xDC00 then
      if 0xDC00 ≤ low ∧ low < 0xE000 then
        let code := 0x10000 + (high - 0xD800) * 0x400 + (low - 0xDC00)
        (Letter.text? rest).map (Char.ofNat code :: ·)
      else none
    else if 0xDC00 ≤ high ∧ high < 0xE000 then none
    else (Letter.text? (.unit low :: rest)).map (Char.ofNat high :: ·)
  | .unit n :: rest =>
    if 0xD800 ≤ n ∧ n < 0xE000 then none
    else (Letter.text? rest).map (Char.ofNat n :: ·)

def hexDigit? (c : Char) : Option Nat :=
  if '0' ≤ c ∧ c ≤ '9' then some (c.toNat - 48)
  else if 'a' ≤ c ∧ c ≤ 'f' then some (c.toNat - 87)
  else if 'A' ≤ c ∧ c ≤ 'F' then some (c.toNat - 55)
  else none

def unit? (a b c d : Char) : Option Nat := do
  let a ← hexDigit? a
  let b ← hexDigit? b
  let c ← hexDigit? c
  let d ← hexDigit? d
  return ((a * 16 + b) * 16 + c) * 16 + d

def escaped? : Char → Option Char
  | '"' => some '"'
  | '\\' => some '\\'
  | '/' => some '/'
  | 'b' => some '\x08'
  | 'f' => some '\x0c'
  | 'n' => some '\n'
  | 'r' => some '\r'
  | 't' => some '\t'
  | _ => none

def stringBody (read : List Letter) : List Char → Option (List Letter × List Char)
  | [] => none
  | '"' :: rest => some (read.reverse, rest)
  | '\\' :: 'u' :: a :: b :: c :: d :: rest =>
    match unit? a b c d with
    | some n => stringBody (.unit n :: read) rest
    | none => none
  | '\\' :: c :: rest =>
    match escaped? c with
    | some c => stringBody (.char c :: read) rest
    | none => none
  | c :: rest => if c.toNat < 0x20 then none else stringBody (.char c :: read) rest

def digitsFront (cs : List Char) : List Nat × List Char :=
  (cs.takeWhile (Decimal.digit? · |>.isSome) |>.filterMap Decimal.digit?,
    cs.dropWhile (Decimal.digit? · |>.isSome))

def fractionFront? : List Char → Option (List Nat × List Char)
  | '.' :: cs =>
    match digitsFront cs with
    | ([], _) => none
    | front => some front
  | cs => some ([], cs)

def exponentDigits? (negative : Bool) (cs : List Char) :
    Option (Option (Bool × List Nat) × List Char) :=
  match digitsFront cs with
  | ([], _) => none
  | (ds, rest) => some (some (negative, ds), rest)

def exponentFront? : List Char → Option (Option (Bool × List Nat) × List Char)
  | c :: cs =>
    if c = 'e' ∨ c = 'E' then
      match cs with
      | '+' :: cs => exponentDigits? false cs
      | '-' :: cs => exponentDigits? true cs
      | cs => exponentDigits? false cs
    else some (none, c :: cs)
  | [] => some (none, [])

def numeralFront? (negative : Bool) (cs : List Char) : Option (Numeral × List Char) :=
  match digitsFront cs with
  | ([], _) => none
  | (0 :: _ :: _, _) => none
  | (whole, rest) => do
    let (fraction, rest) ← fractionFront? rest
    let (exponent, rest) ← exponentFront? rest
    return ({ negative, whole, fraction, exponent }, rest)

def isBlank (c : Char) : Bool := c = ' ' || c = '\n' || c = '\t' || c = '\r'

def tokenFront? (c : Char) (cs : List Char) : Option (Token × List Char) :=
  match c, cs with
  | '\x7b', cs => some (.openBrace, cs)
  | '\x7d', cs => some (.closeBrace, cs)
  | '[', cs => some (.openBracket, cs)
  | ']', cs => some (.closeBracket, cs)
  | ',', cs => some (.comma, cs)
  | ':', cs => some (.colon, cs)
  | 'n', 'u' :: 'l' :: 'l' :: cs => some (.null, cs)
  | 't', 'r' :: 'u' :: 'e' :: cs => some (.bool true, cs)
  | 'f', 'a' :: 'l' :: 's' :: 'e' :: cs => some (.bool false, cs)
  | '"', cs => (stringBody [] cs).map fun (letters, rest) => (.string letters, rest)
  | '-', cs => (numeralFront? true cs).map fun (n, rest) => (.numeral n, rest)
  | c, cs => (numeralFront? false (c :: cs)).map fun (n, rest) => (.numeral n, rest)

/-- The tokens of a text, after those read already. Each takes at least one character, so the
length of the text is fuel enough. -/
def tokensFrom (read : List Token) : Nat → List Char → List Token
  | _, [] => read.reverse
  | 0, _ => read.reverse
  | fuel + 1, c :: cs =>
    if isBlank c then tokensFrom read fuel cs
    else match tokenFront? c cs with
      | some (t, rest) => tokensFrom (t :: read) fuel rest
      | none => (Token.malformed :: read).reverse

def tokens (text : String) : List Token :=
  let cs := text.toList
  tokensFrom [] cs.length cs

def Token.scalar? : Token → Option Json
  | .null => some .null
  | .bool b => some (.bool b)
  | .numeral n => n.value?
  | .string letters => (Letter.text? letters).map fun cs => .string (String.ofList cs)
  | _ => none

end Cadence.Json
