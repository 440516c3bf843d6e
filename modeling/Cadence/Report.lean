import Cadence.Decimal.Fixed
import Cadence.Decimal.Layout
import Cadence.Text.Outline

namespace Cadence

structure Report where
  count : UInt64
  rate : Binary64
  elapsed : Binary64
deriving DecidableEq

namespace Report

def isMeasurable (r : Report) : Bool := r.rate.isFinite

def equal (r s : Report) : Bool :=
  r.count == s.count && r.rate.equal s.rate && r.elapsed.equal s.elapsed

def pieces (r : Report) : List String :=
  ["[", Decimal.text r.count.toNat, ", ", Decimal.fixed 6 r.rate, " record/s, elapsed ",
    Decimal.fixed 6 r.elapsed, " seconds.]"]

def text (r : Report) : String := String.join r.pieces

def outline (r : Report) : Outline :=
  .record "ProgressSample"
    [("count", .atom (Decimal.text r.count.toNat)),
      ("rate", .atom (Decimal.described.text r.rate)),
      ("elapsed", .atom (Decimal.described.text r.elapsed))]

end Report

end Cadence
