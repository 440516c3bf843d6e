import Cadence.Json.Printer
import Cadence.Meter.Basic
import Cadence.Text.Outline
import Cadence.Text.Quoted

namespace Cadence

structure Settings where
  interval : UInt64
deriving DecidableEq

namespace Settings

def defaultInterval : UInt64 := 10000

def standard : Settings := ⟨defaultInterval⟩

def intervalKey : String := "report_interval"

def validate (c : Settings) : Except SetupError Interval := Interval.ofRecords c.interval

def outline (c : Settings) : Outline :=
  .record "CounterConfig" [(intervalKey, .atom (Decimal.text c.interval.toNat))]

inductive Expected
  | settings
  | interval

def Expected.text : Expected → String
  | .settings => "struct CounterConfig"
  | .interval => "u64"

inductive Found
  | null
  | boolean (b : Bool)
  | integer (n : Int)
  | real (x : Binary64)
  | string (s : String)
  | sequence
  | map

def Found.ofJson : Json → Found
  | .null => .null
  | .bool b => .boolean b
  | .integer n => .integer n
  | .real x => .real x
  | .string s => .string s
  | .array _ => .sequence
  | .object _ => .map

def ticked (s : String) : String := "\x60" ++ s ++ "\x60"

def Found.text : Found → String
  | .null => "null"
  | .boolean b => "boolean " ++ ticked (if b then "true" else "false")
  | .integer n => "integer " ++ ticked (Json.printInteger n)
  | .real x => "floating point " ++ ticked (Decimal.documented.text x)
  | .string s => "string " ++ Text.quoted s
  | .sequence => "sequence"
  | .map => "map"

inductive DataError
  | repeatedInterval
  | negative (n : Int)
  | wrongType (found : Found) (expected : Expected)
  | tooLong (items : Nat)

def DataError.message : DataError → String
  | .repeatedInterval => "duplicate field " ++ ticked intervalKey
  | .negative n =>
    "invalid value: " ++ (Found.integer n).text ++ ", expected " ++ Expected.interval.text
  | .wrongType found expected => "invalid type: " ++ found.text ++ ", expected " ++ expected.text
  | .tooLong items =>
    "invalid length " ++ Decimal.text items ++ ", expected fewer elements in array"

def intervalOf : Json → Except DataError UInt64
  | .integer n => if n < 0 then .error (.negative n) else .ok (UInt64.ofNat n.toNat)
  | v => .error (.wrongType (.ofJson v) .interval)

def ofFound (found : Option UInt64) : Settings := ⟨found.getD defaultInterval⟩

end Settings

end Cadence
