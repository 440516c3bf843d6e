import Cadence.Decimal.Layout
import Cadence.Json.Basic

namespace Cadence.Json

def hexChar (n : Nat) : Char := if n < 10 then Char.ofNat (48 + n) else Char.ofNat (87 + n)

def printChar (c : Char) : List Char :=
  if c = '"' ∨ c = '\\' then ['\\', c]
  else if c.toNat < 0x20 then
    ['\\', 'u', '0', '0', hexChar (c.toNat / 16), hexChar (c.toNat % 16)]
  else [c]

def printString (printed : String) (s : String) : String :=
  (s.foldl (fun printed c => (printChar c).foldl String.push printed) (printed.push '"')).push '"'

def printInteger (n : Int) : String :=
  if n < 0 then "-" ++ Decimal.text n.natAbs else Decimal.text n.natAbs

mutual

def print (printed : String) : Json → String
  | .null => printed ++ "null"
  | .bool b => printed ++ if b then "true" else "false"
  | .integer n => printed ++ printInteger n
  | .real x => printed ++ Decimal.documented.text x
  | .string s => printString printed s
  | .array [] => printed ++ "[]"
  | .array (item :: items) => (printItems (item.print (printed.push '[')) items).push ']'
  | .object [] => printed ++ "\x7b\x7d"
  | .object (member :: members) =>
    (printMembers (printMember (printed.push '\x7b') member) members).push '\x7d'

def printItems (printed : String) : List Json → String
  | [] => printed
  | item :: items => printItems (item.print (printed.push ',')) items

def printMember (printed : String) : String × Json → String
  | (key, value) => value.print ((printString printed key).push ':')

def printMembers (printed : String) : List (String × Json) → String
  | [] => printed
  | member :: members => printMembers (printMember (printed.push ',') member) members

end

def text (v : Json) : String := v.print ""

end Cadence.Json
