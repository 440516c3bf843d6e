import Cadence.Binary64.Arithmetic

namespace Cadence

structure Span where
  nanos : Nat
deriving DecidableEq

structure Instant where
  nanos : Nat
deriving DecidableEq

def nanosPerSecond : Nat := 1000000000

namespace Span

def ofSeconds (seconds nanos : Nat) : Span := ⟨seconds * nanosPerSecond + nanos⟩

def wholeSeconds (d : Span) : Nat := d.nanos / nanosPerSecond

def fraction (d : Span) : Nat := d.nanos % nanosPerSecond

def seconds (d : Span) : Binary64 :=
  .ofNat d.wholeSeconds + .ofNat d.fraction / .ofNat nanosPerSecond

def microseconds (d : Span) : Binary64 := .ofNat (d.nanos / 1000) / .ofNat 1000000

end Span

namespace Instant

def limit : Nat := 0x8000000000000000 * nanosPerSecond

/-- The span from an earlier instant; none has passed since a later one. -/
def since (now earlier : Instant) : Span := ⟨now.nanos - earlier.nanos⟩

theorem nanos_since (now earlier : Instant) :
    ((now.since earlier).nanos : Int) = max 0 ((now.nanos : Int) - earlier.nanos) := by
  simp only [since]
  omega

def plus (t : Instant) (d : Span) : Instant := ⟨t.nanos + d.nanos⟩

def plus? (t : Instant) (d : Span) : Option Instant :=
  if t.nanos + d.nanos < limit then some (t.plus d) else none

end Instant

end Cadence
