import Cadence.Decimal.Digits

namespace Cadence.Session

def after? (front : String) (cs : List Char) : Option (List Char) :=
  let front := front.toList
  if front.isPrefixOf cs then some (cs.drop front.length) else none

def afterDigits? (cs : List Char) : Option (List Char × List Char) :=
  let isDigit (c : Char) := (Decimal.digit? c).isSome
  match cs.takeWhile isDigit with
  | [] => none
  | ds => some (ds, cs.dropWhile isDigit)

def afterNumber? (cs : List Char) : Option (List Char) :=
  let cs := (after? "-" cs).getD cs
  (after? "inf" cs) <|> (after? "NaN" cs) <|> do
    let (_, cs) ← afterDigits? cs
    let cs ← after? "." cs
    let (places, cs) ← afterDigits? cs
    guard (places.length = 6)
    return cs

def maskedReport? (cs : List Char) : Option (List Char × List Char) := do
  let cs ← after? "[" cs
  let (count, cs) ← afterDigits? cs
  let cs ← after? ", " cs
  let cs ← afterNumber? cs
  let cs ← after? " record/s, elapsed " cs
  let cs ← afterNumber? cs
  let cs ← after? " seconds.]" cs
  return ('[' :: count ++ ", ? record/s, elapsed ? seconds.]".toList, cs)

/-- Masks the reports of a text, after what is masked already. Each step takes a character, so the
length of the text is fuel enough. -/
def maskFrom (masked : String) : Nat → List Char → String
  | 0, _ => masked
  | _ + 1, [] => masked
  | fuel + 1, c :: cs =>
    match maskedReport? (c :: cs) with
    | some (report, rest) => maskFrom (report.foldl String.push masked) fuel rest
    | none => maskFrom (masked.push c) fuel cs

def mask (text : String) : String := maskFrom "" text.length text.toList

end Cadence.Session
