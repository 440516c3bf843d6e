import Cadence.Emission
import Cadence.Report

namespace Cadence

structure Interval where
  records : UInt64
  records_ne_zero : records ≠ 0
deriving DecidableEq

inductive SetupError
  | zeroInterval
deriving DecidableEq

def SetupError.message : SetupError → String
  | .zeroInterval => "Report interval must be greater than zero"

def Interval.ofRecords (records : UInt64) : Except SetupError Interval :=
  if h : records = 0 then .error .zeroInterval else .ok ⟨records, h⟩

theorem Interval.records_pos (interval : Interval) : 0 < interval.records.toNat := by
  apply Nat.pos_of_ne_zero
  intro zero
  exact interval.records_ne_zero (UInt64.toNat_inj.mp zero)

structure Meter (κ δ : Type) where
  clock : κ
  destination : Option δ
  interval : Interval
  start : Instant
  last : Instant
  count : UInt64
  reports : UInt64
  finished : Bool

namespace Meter

variable {σ κ δ : Type} [Surroundings σ κ δ]

def begin (interval : Interval) (destination : Option δ) (clock : κ) (s : σ) : Meter κ δ × σ :=
  let (now, s) := Surroundings.read clock s
  let s := Surroundings.log (.started interval.records destination.isNone) s
  ({ clock, destination, interval, start := now, last := now, count := 0, reports := 0,
     finished := false }, s)

def begin? (records : UInt64) (destination : Option δ) (clock : κ) (s : σ) :
    Except SetupError (Meter κ δ × σ) :=
  match Interval.ofRecords records with
  | .ok interval => .ok (begin interval destination clock s)
  | .error e => .error e

def elapsed (m : Meter κ δ) (s : σ) : Span × σ :=
  let (now, s) := Surroundings.read m.clock s
  (now.since m.start, s)

def redirect (m : Meter κ δ) (destination : Option δ) : Option δ × Meter κ δ :=
  (m.destination, { m with destination })

def outline (m : Meter κ δ) : Outline :=
  .record "RecordCounter"
    [("count", .atom (Decimal.text m.count.toNat)),
      ("report_interval", .atom (Decimal.text m.interval.records.toNat)),
      ("reports", .atom (Decimal.text m.reports.toNat)),
      ("finished", .atom (if m.finished then "true" else "false")),
      ("sink", .atom (describeDestination m.destination.isNone))]

end Meter

end Cadence
