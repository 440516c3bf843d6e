import Cadence.Decimal.Fixed

namespace Cadence

inductive Fault
  | brokenPipe
  | permissionDenied
  | timedOut
  | wouldBlock
  | interrupted
  | nothingAccepted
  | other (message : String)
deriving DecidableEq

def Fault.message : Fault → String
  | .brokenPipe => "broken pipe"
  | .permissionDenied => "permission denied"
  | .timedOut => "timed out"
  | .wouldBlock => "operation would block"
  | .interrupted => "operation interrupted"
  | .nothingAccepted => "failed to write whole buffer"
  | .other message => message

inductive Level
  | trace
  | debug
  | warn
deriving DecidableEq

inductive Origin
  | meter
  | timer
deriving DecidableEq

inductive Event
  | started (interval : UInt64) (toStandardError : Bool)
  | progress (count : UInt64) (rate : Binary64)
  | reportFailed (fault : Fault)
  | markerFailed (fault : Fault)
  | finished (count : UInt64) (elapsed : Binary64)
  | readBeforeStart
deriving DecidableEq

def describeDestination (standardError : Bool) : String :=
  if standardError then "OutputSink(stderr)" else "OutputSink(custom)"

namespace Event

def level : Event → Level
  | .progress _ _ => .trace
  | .started _ _ | .finished _ _ | .readBeforeStart => .debug
  | .reportFailed _ | .markerFailed _ => .warn

def origin : Event → Origin
  | .readBeforeStart => .timer
  | _ => .meter

def message : Event → String
  | .started _ _ => "Record counter started"
  | .progress _ _ => "Progress report"
  | .reportFailed _ => "Failed to write progress report"
  | .markerFailed _ => "Failed to write done marker"
  | .finished _ _ => "Record counter finished"
  | .readBeforeStart => "Stopwatch read before start"

inductive Field
  | number (n : UInt64)
  | real (x : Binary64)
  | text (s : String)

def fields : Event → List (String × Field)
  | .started interval toStandardError =>
    [("report_interval", .number interval), ("sink", .text (describeDestination toStandardError))]
  | .progress count rate => [("count", .number count), ("rate", .real rate)]
  | .reportFailed fault | .markerFailed fault => [("error", .text fault.message)]
  | .finished count elapsed =>
    [("count", .number count), ("elapsed_secs", .text (Decimal.fixed 3 elapsed))]
  | .readBeforeStart => []

def isTimed : Event → String → Bool
  | .progress _ _, name => name = "rate"
  | .finished _ _, name => name = "elapsed_secs"
  | _, _ => false

end Event

end Cadence
