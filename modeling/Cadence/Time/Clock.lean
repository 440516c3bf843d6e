import Cadence.Crash
import Cadence.Time.Instant

namespace Cadence

inductive Clock
  | manual (now : Instant)
  | scripted (now : Instant) (step : Span)
deriving DecidableEq

namespace Clock

def read : Clock → Instant × Clock
  | .manual now => (now, .manual now)
  | .scripted now step => (now, .scripted (now.plus step) step)

def advance (d : Span) : Clock → Attempt Clock
  | .manual now =>
    match now.plus? d with
    | some later => .ok (.manual later)
    | none => .error .instantOverflow
  | .scripted now step =>
    match now.plus? d with
    | some later => .ok (.scripted later step)
    | none => .error .instantOverflow

def set (target : Instant) : Clock → Clock
  | .manual now => .manual now
  | .scripted _ step => .scripted target step

end Clock

end Cadence
